/-!
# Fields of a power data object

A fixed-supply power data object is a word of 32 bits. Ten fields share it out from bit 31 down
to bit 0 without a gap. A field is read as a number. Writing replaces its bits by the low bits of
the value, as many as fit, and leaves all other bits alone.

Flags are the fields of one bit that can be set, and quantities the wider ones. The supply type
and the reserved bits can only be read.
-/

namespace PowerSink.FixedPdo

inductive Flag where
  | dualRolePower
  | higherCapability
  | unconstrainedPower
  | usbCommunicationsCapable
  | dualRoleData
  deriving DecidableEq

inductive Quantity where
  | fastRoleSwap
  | voltage
  | current
  deriving DecidableEq

inductive Field where
  | fixed
  | reserved
  | flag (f : Flag)
  | quantity (q : Quantity)
  deriving DecidableEq

namespace Flag

def all : List Flag :=
  [.dualRolePower, .higherCapability, .unconstrainedPower, .usbCommunicationsCapable,
    .dualRoleData]

def label : Flag → String
  | dualRolePower => "dual_role_power"
  | higherCapability => "higher_capability"
  | unconstrainedPower => "unconstrained_power"
  | usbCommunicationsCapable => "usb_communications_capable"
  | dualRoleData => "dual_role_data"

def ofLabel? (text : String) : Option Flag := all.find? fun f => f.label = text

end Flag

namespace Quantity

def all : List Quantity := [.fastRoleSwap, .voltage, .current]

def label : Quantity → String
  | fastRoleSwap => "fast_role_swap"
  | voltage => "voltage"
  | current => "current"

def ofLabel? (text : String) : Option Quantity := all.find? fun q => q.label = text

end Quantity

namespace Field

/-- From the highest bits to the lowest. -/
def all : List Field :=
  .fixed :: Flag.all.map .flag ++
    [.quantity .fastRoleSwap, .reserved, .quantity .voltage, .quantity .current]

def label : Field → String
  | fixed => "fixed"
  | reserved => "reserved"
  | flag f => f.label
  | quantity q => q.label

/-- The number of a field's lowest bit. -/
def low : Field → Nat
  | fixed => 30
  | flag .dualRolePower => 29
  | flag .higherCapability => 28
  | flag .unconstrainedPower => 27
  | flag .usbCommunicationsCapable => 26
  | flag .dualRoleData => 25
  | quantity .fastRoleSwap => 23
  | reserved => 20
  | quantity .voltage => 10
  | quantity .current => 0

/-- How many bits a field has. -/
def width : Field → Nat
  | fixed => 2
  | flag _ => 1
  | quantity .fastRoleSwap => 2
  | reserved => 3
  | quantity .voltage => 10
  | quantity .current => 10

/-- The largest value of a field, all of its bits set. -/
def ones (field : Field) : UInt32 := UInt32.ofNat ((1 <<< field.width) - 1)

def read (field : Field) (word : UInt32) : UInt32 :=
  (word >>> UInt32.ofNat field.low) &&& field.ones

def write (field : Field) (value word : UInt32) : UInt32 :=
  (word &&& ~~~(field.ones <<< UInt32.ofNat field.low)) |||
    ((value &&& field.ones) <<< UInt32.ofNat field.low)

end Field

end PowerSink.FixedPdo
