import ActorCore.Script.Basic
import ActorCore.Actor.Program

/-!
# Scripts as programs

`Script.program pid lines` is the program a process with pid `pid` runs for a script. Each
instruction leaves a note with its name and result when its result is known: an instruction
that asks the scheduler leaves it when the reply arrives, so an instruction whose request ends
its own process leaves none.

After each instruction its result becomes the previous result and is stored under the line's
name. A failing instruction leaves its error as the note; on a line with the flag set the
error ends the script, otherwise the script goes on with the previous result unchanged. A
receive that selects a message, and a match, make their bound values the last bindings; a
receive that times out leaves none. The holes of a receive's patterns, guards and bodies are
filled when the receive starts, so a body's binding holes are the bindings before the receive.
`exit_self`, `raise`, `panic` and `return` note their argument and end the script with an exit,
a raised term, a panic or a normal return; `repeat` runs its block the given number of times.
A spawn with a monitor is not linked. An argument that must be a pid, a reference or a
destination and is not one is refused: the refusal is the note, nothing is asked of the
scheduler, and the script goes on, whether or not the line has the flag. So does a step that
cannot be read, and a receive with a match body whose binary pattern cannot be laid out once
the receive's holes are filled.
-/

namespace ActorCore

namespace Script

/-- What a script does after a step, given the scope. -/
abbrev Cont := Scope → Program

/-- The atom `:ok`. -/
def okAtom : Term := .atom "ok"

/-- The scope after a step with result `t`, stored under `store`. -/
def afterStep (sc : Scope) (t : Term) (store : Option String) : Scope :=
  let sc := { sc with last := t }
  match store with
  | some name => sc.store name t
  | none => sc

/-- Notes the result of a step, then goes on; an error on a line with the flag set ends the
script. -/
def step (name : String) (store : Option String) (bang : Bool) (sc : Scope)
    (result : Except RuntimeError Term) (k : Cont) : Program :=
  match result with
  | .ok t => .note ⟨name, .term t⟩ (k (afterStep sc t store))
  | .error e => .note ⟨name, .error e⟩ (if bang then .finish (.error e) else k sc)

/-- The term a plain reply stands for. -/
def replyTerm : Reply → Term
  | .ok => okAtom
  | .ref r => .ref r
  | .term t => t
  | .terms ts => .list ts
  | .bool b => .bool b
  | .pid (some p) => .pid p
  | .pid none => .nil
  | .pids ps => .list (ps.map Term.pid)
  | .names ns => .list (ns.map Term.str)
  | .spawned p none => .pid p
  | .spawned p (some r) => .tuple [.pid p, .ref r]
  | .error _ | .received _ | .start => .nil

/-- The result a plain reply stands for. -/
def replyResult : Reply → Except RuntimeError Term
  | .error e => .error e
  | r => .ok (replyTerm r)

/-- The destination that the expression in `field` gives: a pid, or a registered name given as
a string; anything else is refused. -/
def destArg (field : String) (sc : Scope) (e : Expr) : Except Refusal Dest :=
  match e.eval sc with
  | .pid n => .ok (.pid n)
  | .str s => .ok (.name s)
  | t => .error ⟨field, .destination, t⟩

/-- Runs `f` on an argument; a refused argument is the step's note, and the script goes on. -/
def withArg {α : Type} (name : String) (sc : Scope) (arg : Except Refusal α) (k : Cont)
    (f : α → Program) : Program :=
  match arg with
  | .ok a => f a
  | .error r => .note ⟨name, .refused r⟩ (k sc)

/-- The clauses of a receive, with their holes filled in a scope; the first pattern whose
binaries cannot be laid out is an error. -/
def recvClauses (sc : Scope) (cs : List RecvClause) : Except Binary.Error (List Clause) :=
  cs.zipIdx.mapM fun (c, i) => do
    let params := c.params.map (Pattern.mapLeaves (Expr.eval sc))
    params.forM Pattern.check
    pure (BodyExpr.clause sc (fun _ => sc) i params c.guard c.body)

/-- The clause that accepts any message and returns it. -/
def anyClause : Clause where
  params := [.var none false none]
  body := fun vs => .ok (vs.headD .nil)

/-- A request whose plain reply is the step's result. -/
def ask (name : String) (store : Option String) (bang : Bool) (sc : Scope) (req : Request)
    (k : Cont) : Program :=
  .call req fun r => step name store bang sc (replyResult r) k

/-- The reply to a receive: the selected clause's body runs on its bound values, which become
the last bindings; a timeout gives the timeout value and leaves no bindings. -/
def received (name : String) (store : Option String) (bang : Bool) (sc : Scope)
    (clauses : List Clause) (timeoutValue : Term) (k : Cont) : Reply → Program
  | .received (.message i values) =>
    let sc' := { sc with bindings := values }
    match clauses[i]? with
    | some c =>
      match c.invoke values with
      | .ok t => step name store bang sc' (.ok t) k
      | .error (.error e) => step name store bang sc' (.error e) k
      | .error (.panic p) => .crash p
    | none => step name store bang sc' (.ok .nil) k
  | .received .timeout => step name store bang { sc with bindings := [] } (.ok timeoutValue) k
  | _ => step name store bang sc (.ok .nil) k

/-- The scope a process starts with. -/
def initialScope (pid : Nat) : Scope :=
  { self := .pid pid }

mutual

/-- Runs lines in order, then `k`. -/
def exec (pid : Nat) : List Line → Scope → Cont → Program
  | [], sc, k => k sc
  | .mk instr store bang :: rest, sc, k =>
    execInstr pid instr store bang sc fun sc' => exec pid rest sc' k
termination_by lines => (sizeOf lines, 0)

/-- Runs one instruction, then `k`. -/
def execInstr (pid : Nat) (instr : Instr) (store : Option String) (bang : Bool) (sc : Scope)
    (k : Cont) : Program :=
  let name := instr.name
  match instr with
  | .yield => ask name store bang sc .yield k
  | .self => step name store bang sc (.ok sc.self) k
  | .debug => step name store bang sc (.ok (.str ("Context \x7b pid: PID(" ++ toString pid ++ ") \x7d"))) k
  | .spawn body link monitor =>
    ask name store bang sc (.spawn (fun child => exec child body (initialScope child) fun _ => .finish (.ok ()))
      (link && !monitor) monitor) k
  | .send dest msg =>
    withArg name sc (destArg "to" sc dest) k fun d => ask name store bang sc (.send d (msg.eval sc)) k
  | .sendAfter dest msg ms =>
    withArg name sc (pidArg "to" sc dest) k fun p =>
      ask name store bang sc (.sendAfter p (msg.eval sc) ms) k
  | .receive cs after timeoutValue =>
    match cs.findSome? (·.body.patternError? sc) with
    | some e => .note ⟨name, .unreadable e.message⟩ (k sc)
    | none =>
    match recvClauses sc cs with
    | .ok clauses =>
      let onTimeout := (timeoutValue.map (Expr.eval sc)).getD (.atom "timeout")
      .call (.receive clauses after) (received name store bang sc clauses onTimeout k)
    | .error e => step name store bang sc (.error (.binary e)) k
  | .receiveAny =>
    .call (.receive [anyClause] none) fun r =>
      match r with
      | .received (.message _ values) => step name store bang sc (.ok (values.headD .nil)) k
      | _ => step name store bang sc (.ok .nil) k
  | .sleep ms => ask name store bang sc (.sleep ms) k
  | .link p => withArg name sc (pidArg "pid" sc p) k fun p => ask name store bang sc (.link p) k
  | .unlink p => withArg name sc (pidArg "pid" sc p) k fun p => ask name store bang sc (.unlink p) k
  | .monitor p => withArg name sc (pidArg "pid" sc p) k fun p => ask name store bang sc (.monitor p) k
  | .demonitor r =>
    withArg name sc (refArg "ref" sc r) k fun r => ask name store bang sc (.demonitor r) k
  | .exit p reason =>
    withArg name sc (pidArg "pid" sc p) k fun p =>
      ask name store bang sc (.exit p (ExitReason.ofTerm (reason.eval sc))) k
  | .exitSelf reason =>
    let r := ExitReason.ofTerm (reason.eval sc)
    .note ⟨name, .reason r⟩ (.finish (.error (.exit r)))
  | .raise value =>
    let v := value.eval sc
    .note ⟨name, .term v⟩ (.finish (.error (.raise v)))
  | .panic msg p => .note ⟨name, .term (.str msg)⟩ (.crash p)
  | .ret => .note ⟨name, .term .nil⟩ (.finish (.ok ()))
  | .register n => ask name store bang sc (.register n) k
  | .unregister n => ask name store bang sc (.unregister n) k
  | .whereis n => ask name store bang sc (.whereis n) k
  | .registered => ask name store bang sc .registered k
  | .processFlag flag value => ask name store bang sc (.processFlag flag (value.eval sc)) k
  | .put key value => ask name store bang sc (.put (key.eval sc) (value.eval sc)) k
  | .get key => ask name store bang sc (.get (key.eval sc)) k
  | .erase key => ask name store bang sc (.erase (key.eval sc)) k
  | .getKeys => ask name store bang sc .getKeys k
  | .isAlive p => withArg name sc (pidArg "pid" sc p) k fun p => ask name store bang sc (.isAlive p) k
  | .list => ask name store bang sc .list k
  | .makeRef => ask name store bang sc .makeRef k
  | .bind p value =>
    let filled := p.mapLeaves (Expr.eval sc)
    match filled.check with
    | .error e => step name store bang sc (.error (.binary e)) k
    | .ok () =>
      match filled.matchValues (value.eval sc) with
      | .ok values => step name store bang { sc with bindings := values } (.ok (.list values)) k
      | .error e => step name store bang sc (.error e) k
  | .repeat n body => execRepeat pid n body sc k
  | .unreadable _ msg => .note ⟨name, .unreadable msg⟩ (k sc)
termination_by (sizeOf instr, 0)

/-- Runs a block `n` times, then `k`. -/
def execRepeat (pid : Nat) : Nat → List Line → Scope → Cont → Program
  | 0, _, sc, k => k sc
  | n + 1, body, sc, k => exec pid body sc fun sc' => execRepeat pid n body sc' k
termination_by n body => (sizeOf body, n + 1)

end

/-- The program of a process with pid `pid` running a script; a script that runs to its end
returns normally. -/
def program (lines : List Line) (pid : Nat) : Program :=
  exec pid lines (initialScope pid) fun _ => .finish (.ok ())

end Script

end ActorCore
