import ActorCore.Actor.Config
import ActorCore.Fault
import ActorCore.Text.Quoted

/-!
# Settings from environment variables

Settings can be read from variables that are first set in the environment, one at a time in
the order given. The operating system refuses a variable whose name or value holds a NUL
character, since both are passed as NUL-terminated strings, and one whose name is empty or
holds `=`. The first refusal is a panic that quotes the variable's name and value.

* `Environment.refusal?` — why a variable cannot be set, if it cannot.
* `Config.ofVariables` — the settings read from variables once they are set, or the panic.
-/

namespace ActorCore

namespace Environment

/-- Why the operating system refuses to set a variable, if it does. -/
def refusal? (name value : String) : Option String :=
  if name.contains '\x00' || value.contains '\x00' then
    some "file name contained an unexpected NUL byte"
  else if name.isEmpty || name.contains '=' then some "Invalid argument (os error 22)"
  else none

/-- The panic of a variable the operating system refuses. -/
def refusalPanic (name value reason : String) : Panic :=
  .text ("failed to set environment variable \x60" ++ Text.quoteAll name ++ "\x60 to \x60" ++
    Text.quoteAll value ++ "\x60: " ++ reason)

/-- The first refusal among variables set in order, as a panic. -/
def firstRefusal? (vars : List (String × String)) : Option Panic :=
  vars.findSome? fun (name, value) => (refusal? name value).map (refusalPanic name value)

end Environment

/-- The settings read from variables set in order, the last value of a name winning; a
variable the operating system refuses panics. -/
def Config.ofVariables (vars : List (String × String)) : Except Panic Config :=
  match Environment.firstRefusal? vars with
  | some p => .error p
  | none => .ok (Config.ofEnv fun name => vars.reverse.lookup name)

theorem Config.ofVariables_nil : Config.ofVariables [] = .ok (Config.ofEnv fun _ => none) := rfl

end ActorCore
