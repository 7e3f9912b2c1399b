import PowerSink.Pdo.Fixed
import PowerSink.Session

/-!
# Overriding a power data object

An override lasts until the next power-up. It writes the slot, then advertises all objects up to
that slot, and then asks for a renegotiation. The first failing call ends it, and only a failure
to write the slot is logged.
-/

namespace PowerSink

inductive PdoCall where
  | setPdo (channel : PdoChannel) (pdo : FixedPdo)
  | setCount (count : UInt8)
  | renegotiate
  deriving DecidableEq

/-- No call returns anything but its success. -/
abbrev PdoCall.Answer : PdoCall → Type := fun _ => Unit

namespace FixedPdo

abbrev Overriding (ε : Type) := Session PdoCall.Answer ε (Except ε Unit)

variable {ε : Type}

def announce (channel : PdoChannel) (pdo : FixedPdo) : Overriding ε :=
  .call .renegotiate fun
    | .error code => .done (.error code)
    | .ok _ => .log (.overridden channel pdo.millivolts pdo.milliamps) (.done (.ok ()))

def advertise (channel : PdoChannel) (pdo : FixedPdo) : Overriding ε :=
  .call (.setCount channel.number) fun
    | .error code => .done (.error code)
    | .ok _ => announce channel pdo

def apply (pdo : FixedPdo) (channel : PdoChannel) : Overriding ε :=
  .call (.setPdo channel pdo) fun
    | .error code => .log (.overrideFailed channel) (.done (.error code))
    | .ok _ => advertise channel pdo

end FixedPdo

end PowerSink
