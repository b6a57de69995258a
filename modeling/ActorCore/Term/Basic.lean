import ActorCore.Number.Double

/-!
# Terms

The values that guest programs compute with and that processes send each other.

* `Term` — nil, booleans, 64-bit integers, doubles, atoms, strings, lists, tuples, maps and
  named records (both as lists of entries in insertion order), byte strings, process ids and
  references.
* `Term.beq` — strict equality: the same kind with equal contents. Doubles compare as IEEE
  numbers, so `0.0` equals `-0.0` and a NaN equals nothing; a map equals another of the same
  size when every one of its entries is found there with an equal value.
* `Term.Kind`, `Term.kind`, `Term.truthy` — the kind of a term and its truth value as a
  condition: everything except `nil` and `false` is true.

Integers are 64-bit signed values; every operation of the library that builds an integer keeps
it in that range, so they are held as `Int`.
-/

namespace ActorCore

/-- A value of the guest language. -/
inductive Term where
  | nil
  | bool (b : Bool)
  | int (n : Int)
  | float (x : Double)
  | atom (name : String)
  | str (s : String)
  | list (items : List Term)
  | tuple (items : List Term)
  | map (entries : List (Term × Term))
  | record (name : String) (fields : List (Term × Term))
  | bits (bytes : List UInt8)
  | pid (n : Nat)
  | ref (n : Nat)

namespace Term

/-- The kinds of terms, one per constructor. -/
inductive Kind where
  | nil
  | boolean
  | integer
  | float
  | atom
  | string
  | list
  | tuple
  | map
  | record
  | bitstring
  | pid
  | reference
  deriving DecidableEq, Repr

/-- The kind of a term. -/
def kind : Term → Kind
  | .nil => .nil
  | .bool _ => .boolean
  | .int _ => .integer
  | .float _ => .float
  | .atom _ => .atom
  | .str _ => .string
  | .list _ => .list
  | .tuple _ => .tuple
  | .map _ => .map
  | .record _ _ => .record
  | .bits _ => .bitstring
  | .pid _ => .pid
  | .ref _ => .reference

namespace Kind

/-- The name of a kind, as guards and reports spell it. -/
def name : Kind → String
  | .nil => "nil"
  | .boolean => "boolean"
  | .integer => "integer"
  | .float => "float"
  | .atom => "atom"
  | .string => "string"
  | .list => "list"
  | .tuple => "tuple"
  | .map => "map"
  | .record => "struct"
  | .bitstring => "bitstring"
  | .pid => "pid"
  | .reference => "reference"

/-- Every kind, in declaration order. -/
def all : List Kind :=
  [.nil, .boolean, .integer, .float, .atom, .string, .list, .tuple, .map, .record, .bitstring,
    .pid, .reference]

/-- The kind with a given name, if there is one. -/
def ofName? (s : String) : Option Kind :=
  all.find? (fun k => k.name == s)

/-- Scalars are the kinds with no terms inside: nil, booleans, numbers, atoms and strings. -/
def isPrimitive : Kind → Bool
  | .nil | .boolean | .integer | .float | .atom | .string => true
  | _ => false

theorem ofName?_name (k : Kind) : ofName? k.name = some k := by
  cases k <;> rfl

end Kind

/-- The integer inside an integer term. -/
def asInt? : Term → Option Int
  | .int n => some n
  | _ => none

/-- The double inside a double term. -/
def asFloat? : Term → Option Double
  | .float x => some x
  | _ => none

/-- The text of a string term. -/
def asStr? : Term → Option String
  | .str s => some s
  | _ => none

/-- The name of an atom. -/
def asAtom? : Term → Option String
  | .atom name => some name
  | _ => none

/-- The items of a list. -/
def asList? : Term → Option (List Term)
  | .list xs => some xs
  | _ => none

/-- The items of a tuple. -/
def asTuple? : Term → Option (List Term)
  | .tuple xs => some xs
  | _ => none

/-- The number of a process id. -/
def asPid? : Term → Option Nat
  | .pid n => some n
  | _ => none

/-- The term is the atom with this name. -/
def isAtom (t : Term) (name : String) : Bool :=
  t.asAtom? == some name

/-- A term counts as true unless it is `nil` or `false`. -/
def truthy : Term → Bool
  | .nil => false
  | .bool false => false
  | _ => true

mutual

/-- Strict equality of terms. -/
def beq : Term → Term → Bool
  | .nil, .nil => true
  | .bool a, .bool b => a == b
  | .int a, .int b => a == b
  | .float a, .float b => a.beq b
  | .atom a, .atom b => a == b
  | .str a, .str b => a == b
  | .list xs, .list ys => beqList xs ys
  | .tuple xs, .tuple ys => beqList xs ys
  | .map es, .map fs => es.length == fs.length && entriesFound es fs
  | .record n es, .record m fs => n == m && (es.length == fs.length && entriesFound es fs)
  | .bits a, .bits b => a == b
  | .pid a, .pid b => a == b
  | .ref a, .ref b => a == b
  | _, _ => false
termination_by a b => sizeOf a + sizeOf b

/-- Positionwise strict equality of two lists of terms of the same length. -/
def beqList : List Term → List Term → Bool
  | [], [] => true
  | x :: xs, y :: ys => beq x y && beqList xs ys
  | _, _ => false
termination_by xs ys => sizeOf xs + sizeOf ys

/-- Every entry `(k, v)` of the first list is found in the second: its first key strictly
equal to `k` carries a value strictly equal to `v`. -/
def entriesFound : List (Term × Term) → List (Term × Term) → Bool
  | [], _ => true
  | (k, v) :: es, fs => valueFound fs k v && entriesFound es fs
termination_by es fs => sizeOf es + sizeOf fs

/-- The first entry of `fs` whose key is strictly equal to `k` holds a value strictly equal
to `v`. -/
def valueFound : List (Term × Term) → Term → Term → Bool
  | [], _, _ => false
  | (k', v') :: fs, k, v => if beq k' k then beq v' v else valueFound fs k v
termination_by fs k v => sizeOf fs + sizeOf k + sizeOf v

end

instance : BEq Term := ⟨beq⟩

end Term

end ActorCore
