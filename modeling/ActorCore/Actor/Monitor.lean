/-!
# Monitors

A monitor, named by a reference, asks that its observer be told when the observed process ends.
The table maps references to monitors; `takeObserving` removes every monitor of an observed
process and returns their references and observers in ascending order of reference.
-/

namespace ActorCore

/-- The observer and the observed process of a monitor. -/
structure Monitor where
  observer : Nat
  observed : Nat
  deriving DecidableEq, Repr

/-- Monitors by reference. -/
structure MonitorTable where
  entries : List (Nat × Monitor) := []

namespace MonitorTable

/-- The monitor of a reference. -/
def get? (t : MonitorTable) (ref : Nat) : Option Monitor :=
  t.entries.lookup ref

/-- The table with a monitor under a reference, replacing the one it held. -/
def insert (t : MonitorTable) (ref : Nat) (m : Monitor) : MonitorTable :=
  match t.get? ref with
  | some _ => ⟨t.entries.map fun e => if e.1 = ref then (ref, m) else e⟩
  | none => ⟨t.entries ++ [(ref, m)]⟩

/-- Removes the monitor of a reference and returns it. -/
def remove (t : MonitorTable) (ref : Nat) : Option Monitor × MonitorTable :=
  (t.get? ref, ⟨t.entries.filter (·.1 != ref)⟩)

/-- Removes the monitors of an observed process; their references and observers, ascending by
reference. -/
def takeObserving (t : MonitorTable) (pid : Nat) : List (Nat × Nat) × MonitorTable :=
  let taken := (t.entries.filter (·.2.observed == pid)).map fun (r, m) => (r, m.observer)
  (taken.mergeSort fun a b => decide (a.1 ≤ b.1), ⟨t.entries.filter (·.2.observed != pid)⟩)

/-- The number of monitors. -/
def len (t : MonitorTable) : Nat :=
  t.entries.length

end MonitorTable

end ActorCore
