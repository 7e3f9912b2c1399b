/-!
# Sink slots of a controller

A controller advertises up to three power data objects, each from a register of its own. Slots
are counted from one, and advertising `n` objects makes slot `n` the highest one on offer.
-/

namespace PowerSink

inductive PdoChannel where
  | pdo1
  | pdo2
  | pdo3
  deriving DecidableEq

namespace PdoChannel

def all : List PdoChannel := [.pdo1, .pdo2, .pdo3]

/-- The address of the slot's register. -/
def address : PdoChannel → UInt8
  | pdo1 => 0x85
  | pdo2 => 0x89
  | pdo3 => 0x8D

def number : PdoChannel → UInt8
  | pdo1 => 1
  | pdo2 => 2
  | pdo3 => 3

def ofNumber? (n : Nat) : Option PdoChannel := all.find? fun channel => channel.number.toNat = n

/-- The position of the slot, counted from zero. -/
def slot : PdoChannel → Fin 3
  | pdo1 => 0
  | pdo2 => 1
  | pdo3 => 2

theorem slot_add_one (channel : PdoChannel) : channel.slot.val + 1 = channel.number.toNat := by
  cases channel <;> rfl

def text (channel : PdoChannel) : String := "Pdo" ++ toString channel.number.toNat

end PdoChannel

end PowerSink
