import ActorCore.Error

/-!
# The name registry

The registry binds names to processes, at most one name per process and one process per name.

* `Registry.register` — a name already bound is `nameTaken` (with its owner), checked first; a
  process that already has a name is `alreadyRegistered` (with that name).
* `Registry.unregister`, `Registry.cleanup` — remove a name, or the name of a process.
* `Registry.registered` — the names in ascending order.

The runtime keeps the registry as two maps, from names to pids and back (`NameMaps`): a name is
looked up in the first, the name of a process in the second, and every change writes both. A
`Registry` holds the same bindings in one list.
-/

namespace ActorCore

/-- Names bound to processes, in the order they were registered. -/
structure Registry where
  entries : List (String × Nat) := []

namespace Registry

/-- The process a name is bound to. -/
def whereis (r : Registry) (name : String) : Option Nat :=
  r.entries.lookup name

/-- The name of a process. -/
def nameOf (r : Registry) (pid : Nat) : Option String :=
  (r.entries.find? (·.2 == pid)).map (·.1)

/-- Binds a free name to a process that has none. -/
def register (r : Registry) (name : String) (pid : Nat) : Except RuntimeError Registry :=
  match r.whereis name with
  | some owner => .error (.nameTaken name owner)
  | none =>
    match r.nameOf pid with
    | some existing => .error (.alreadyRegistered existing pid)
    | none => .ok ⟨r.entries ++ [(name, pid)]⟩

/-- Removes a name; whether it was bound. -/
def unregister (r : Registry) (name : String) : Bool × Registry :=
  match r.whereis name with
  | some _ => (true, ⟨r.entries.filter (·.1 != name)⟩)
  | none => (false, r)

/-- Removes the name of a process, if it has one. -/
def cleanup (r : Registry) (pid : Nat) : Registry :=
  ⟨r.entries.filter (·.2 != pid)⟩

/-- The bound names, ascending. -/
def registered (r : Registry) : List String :=
  (r.entries.map (·.1)).mergeSort fun a b => decide (a ≤ b)

end Registry

/-- The registry as the runtime keeps it: the pid of each name, and the name of each pid. -/
structure NameMaps where
  names : List (String × Nat) := []
  pidNames : List (Nat × String) := []

namespace NameMaps

/-- The process a name is bound to. -/
def whereis (r : NameMaps) (name : String) : Option Nat :=
  r.names.lookup name

/-- The name of a process, from the reverse map. -/
def nameOf (r : NameMaps) (pid : Nat) : Option String :=
  r.pidNames.lookup pid

/-- Binds a free name to a process that has none, in both maps. -/
def register (r : NameMaps) (name : String) (pid : Nat) : Except RuntimeError NameMaps :=
  match r.whereis name with
  | some owner => .error (.nameTaken name owner)
  | none =>
    match r.nameOf pid with
    | some existing => .error (.alreadyRegistered existing pid)
    | none => .ok { names := r.names ++ [(name, pid)], pidNames := r.pidNames ++ [(pid, name)] }

/-- Removes a name, and its process from the reverse map; whether it was bound. -/
def unregister (r : NameMaps) (name : String) : Bool × NameMaps :=
  match r.whereis name with
  | some pid => (true, { names := r.names.filter (·.1 != name), pidNames := r.pidNames.filter (·.1 != pid) })
  | none => (false, r)

/-- Removes the name of a process, found through the reverse map. -/
def cleanup (r : NameMaps) (pid : Nat) : NameMaps :=
  match r.nameOf pid with
  | some name => { names := r.names.filter (·.1 != name), pidNames := r.pidNames.filter (·.1 != pid) }
  | none => r

/-- The bound names, ascending. -/
def registered (r : NameMaps) : List String :=
  (r.names.map (·.1)).mergeSort fun a b => decide (a ≤ b)

end NameMaps

end ActorCore
