import ActorCore.Lang.BodyExpr

/-!
# Process scripts

A script is a list of lines, each an instruction with an optional name to store its result
under and a flag that makes a failure end the script. Instructions ask the scheduler for
something (spawn, send, receive, sleep, links, monitors, exit signals, the registry, flags, the
dictionary, queries), compute something in place (the process's pid, its description, a match),
end the script (an exit, a raise, a panic, a return), or repeat a block.

The terms of an instruction are expressions: the process's pid, the previous result, stored
results and the values bound by the last receive or match fill their holes when the
instruction runs.
-/

namespace ActorCore

/-- A clause of a receive in a script: its parameter patterns (one for a message), guard and
body. -/
structure RecvClause where
  params : List (Pattern Expr)
  guard : Option Guard
  body : BodyExpr

mutual

/-- An instruction of a script. -/
inductive Instr where
  | yield
  | self
  | debug
  | spawn (body : List Line) (link monitor : Bool)
  | send (dest msg : Expr)
  | sendAfter (dest msg : Expr) (ms : Nat)
  | receive (clauses : List RecvClause) (after : Option Nat) (timeoutValue : Option Expr)
  | receiveAny
  | sleep (ms : Nat)
  | link (pid : Expr)
  | unlink (pid : Expr)
  | monitor (pid : Expr)
  | demonitor (ref : Expr)
  | exit (pid reason : Expr)
  | exitSelf (reason : Expr)
  | raise (value : Expr)
  | panic (msg : String) (p : Panic)
  | ret
  | register (name : String)
  | unregister (name : String)
  | whereis (name : String)
  | registered
  | processFlag (flag : String) (value : Expr)
  | put (key value : Expr)
  | get (key : Expr)
  | erase (key : Expr)
  | getKeys
  | isAlive (pid : Expr)
  | list
  | makeRef
  /-- Matches a pattern against a value; the bound values become the last bindings. -/
  | bind (p : Pattern Expr) (value : Expr)
  | repeat (n : Nat) (body : List Line)
  /-- A step named `op` that could not be read, and why; it does nothing but note the reason. -/
  | unreadable (op message : String)

/-- A line of a script: an instruction, a name to store its result under, and whether a failure
ends the script. -/
inductive Line where
  | mk (instr : Instr) (store : Option String) (bang : Bool)

end

namespace Instr

/-- The name of an instruction, as notes record it. -/
def name : Instr → String
  | .yield => "yield"
  | .self => "self"
  | .debug => "debug"
  | .spawn .. => "spawn"
  | .send .. => "send"
  | .sendAfter .. => "send_after"
  | .receive .. => "receive"
  | .receiveAny => "receive_any"
  | .sleep _ => "sleep"
  | .link _ => "link"
  | .unlink _ => "unlink"
  | .monitor _ => "monitor"
  | .demonitor _ => "demonitor"
  | .exit .. => "exit"
  | .exitSelf _ => "exit_self"
  | .raise _ => "raise"
  | .panic .. => "panic"
  | .ret => "return"
  | .register _ => "register"
  | .unregister _ => "unregister"
  | .whereis _ => "whereis"
  | .registered => "registered"
  | .processFlag .. => "process_flag"
  | .put .. => "put"
  | .get _ => "get"
  | .erase _ => "erase"
  | .getKeys => "get_keys"
  | .isAlive _ => "is_alive"
  | .list => "list"
  | .makeRef => "make_ref"
  | .bind .. => "match"
  | .repeat .. => "repeat"
  | .unreadable op _ => op

/-- The instructions that take no argument. -/
def plain : List Instr :=
  [.yield, .self, .debug, .receiveAny, .ret, .registered, .getKeys, .list, .makeRef]

/-- The instruction without arguments that has a name. -/
def plainNamed? (n : String) : Option Instr :=
  plain.find? (·.name == n)

end Instr

end ActorCore
