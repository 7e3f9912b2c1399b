import PowerSink.Pdo.Override
import PowerSink.Device.FaultPlan

/-!
# Simulated registers

The registers of a simulated controller are its three slots, the number of objects it advertises
and a counter of renegotiations. A call that is planned to fail changes none of them.
-/

namespace PowerSink

structure Registers where
  slots : Vector UInt32 3
  count : UInt8
  resets : Nat

namespace Registers

def initial : Registers := ⟨#v[0, 0, 0], 0, 0⟩

/-- The codes with which calls of each kind are to fail. -/
structure Faults where
  setPdo : FaultPlan BusCode
  setCount : FaultPlan BusCode
  renegotiate : FaultPlan BusCode

instance : EmptyCollection Faults := ⟨⟨∅, ∅, ∅⟩⟩

def perform (registers : Registers) : PdoCall → Registers
  | .setPdo channel pdo =>
    { registers with slots := registers.slots.set channel.slot.val pdo.word channel.slot.isLt }
  | .setCount count => { registers with count := count }
  | .renegotiate => { registers with resets := registers.resets + 1 }

def Faults.first (faults : Faults) : PdoCall → Option BusCode
  | .setPdo _ _ => faults.setPdo.first
  | .setCount _ => faults.setCount.first
  | .renegotiate => faults.renegotiate.first

def Faults.rest (faults : Faults) : PdoCall → Faults
  | .setPdo _ _ => { faults with setPdo := faults.setPdo.rest }
  | .setCount _ => { faults with setCount := faults.setCount.rest }
  | .renegotiate => { faults with renegotiate := faults.renegotiate.rest }

def serve : Session.Handler PdoCall.Answer BusCode (Registers × Faults) :=
  fun request (registers, faults) =>
    match faults.first request with
    | some code => (.error code, (registers, faults.rest request))
    | none => (.ok (), (registers.perform request, faults.rest request))

abbrev OverrideRun := Run PdoCall.Answer BusCode (Except BusCode Unit) (Registers × Faults)

def apply (registers : Registers) (channel : PdoChannel) (pdo : FixedPdo) (faults : Faults) :
    OverrideRun :=
  (pdo.apply channel).run serve (registers, faults)

end Registers

end PowerSink
