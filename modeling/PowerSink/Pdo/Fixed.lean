import PowerSink.Pdo.Field

/-!
# Fixed-supply power data objects

Voltage is kept in units of 50 mV and current in units of 10 mA. Building an object from
quantities that are too large stops at the largest value of the field, while a later update keeps
only the low bits.
-/

namespace PowerSink

structure FixedPdo where
  word : UInt32
  deriving DecidableEq

namespace FixedPdo

abbrev millivoltsPerUnit : UInt32 := 50

abbrev milliampsPerUnit : UInt32 := 10

def get (pdo : FixedPdo) (field : Field) : UInt32 := field.read pdo.word

def flag (pdo : FixedPdo) (f : Flag) : Bool := pdo.get (.flag f) != 0

def voltage (pdo : FixedPdo) : UInt32 := pdo.get (.quantity .voltage)

def current (pdo : FixedPdo) : UInt32 := pdo.get (.quantity .current)

def setFlag (pdo : FixedPdo) (f : Flag) (on : Bool) : FixedPdo :=
  ⟨(Field.flag f).write (if on then 1 else 0) pdo.word⟩

def setQuantity (pdo : FixedPdo) (q : Quantity) (value : UInt32) : FixedPdo :=
  ⟨(Field.quantity q).write value pdo.word⟩

/-- A value that does not fit a field becomes the largest one that does. -/
def saturate (q : Quantity) (value : UInt32) : UInt32 := min value (Field.quantity q).ones

/-- An object with nothing but a voltage and a current. -/
def ofFields (voltage current : UInt32) : FixedPdo :=
  FixedPdo.mk 0
    |>.setQuantity .voltage (saturate .voltage voltage)
    |>.setQuantity .current (saturate .current current)

/-- Takes the units of the fields, 50 mV and 10 mA. -/
def ofUnits (voltage current : UInt16) : FixedPdo := ofFields voltage.toUInt32 current.toUInt32

/-- Rounds down to the units of the fields. -/
def ofMillis (millivolts milliamps : UInt32) : FixedPdo :=
  ofFields (millivolts / millivoltsPerUnit) (milliamps / milliampsPerUnit)

def millivolts (pdo : FixedPdo) : UInt32 := pdo.voltage * millivoltsPerUnit

def milliamps (pdo : FixedPdo) : UInt32 := pdo.current * milliampsPerUnit

def maxMilliwatts (pdo : FixedPdo) : UInt32 := pdo.millivolts * pdo.milliamps / 1000

inductive Update where
  | flag (f : Flag) (on : Bool)
  | quantity (q : Quantity) (value : UInt32)

def update (pdo : FixedPdo) : Update → FixedPdo
  | .flag f on => pdo.setFlag f on
  | .quantity q value => pdo.setQuantity q value

def updateAll (pdo : FixedPdo) (updates : List Update) : FixedPdo := updates.foldl update pdo

/-- The start and then what each update leaves. -/
def states (pdo : FixedPdo) : List Update → List FixedPdo
  | [] => [pdo]
  | first :: rest => pdo :: states (pdo.update first) rest

/-- Flags are shown as truth values and all other fields as numbers. -/
def fieldText (pdo : FixedPdo) : Field → String
  | .flag f => toString (pdo.flag f)
  | field => toString (pdo.get field).toNat

def text (pdo : FixedPdo) : String :=
  let shown := Field.all.map fun field => field.label ++ ": " ++ pdo.fieldText field
  "FixedPdo \x7b " ++ ", ".intercalate ((".0: " ++ toString pdo.word.toNat) :: shown) ++ " \x7d"

end FixedPdo

/-- What a power data object is made from. -/
inductive PdoSource where
  | word (word : UInt32)
  | units (voltage current : UInt16)
  | millis (millivolts milliamps : UInt32)

def PdoSource.pdo : PdoSource → FixedPdo
  | word w => ⟨w⟩
  | units voltage current => .ofUnits voltage current
  | millis millivolts milliamps => .ofMillis millivolts milliamps

end PowerSink
