/-!
# Planned faults

A plan holds a fault or none for each coming call of one kind. Each call uses up the first entry,
and behind the end of the plan no call is at fault.
-/

namespace PowerSink

/-- The code with which a call on the bus fails. -/
abbrev BusCode := UInt32

structure FaultPlan (φ : Type) where
  entries : List (Option φ)

namespace FaultPlan

variable {φ : Type}

instance : EmptyCollection (FaultPlan φ) := ⟨⟨[]⟩⟩

def first (plan : FaultPlan φ) : Option φ := plan.entries.head?.join

def rest (plan : FaultPlan φ) : FaultPlan φ := ⟨plan.entries.tail⟩

end FaultPlan

end PowerSink
