/-!
# Hexadecimal text

Numbers are written with a fixed count of digits, so that a byte is always two characters and
a word always eight. Reading takes the digits of either case and wants two of them for each byte.
-/

namespace PowerSink.Hex

inductive Letters where
  | lower
  | upper

/-- The letters for ten to fifteen follow each other in both cases. -/
def digit (letters : Letters) (value : Nat) : Char :=
  if value < 10 then
    Char.ofNat ('0'.toNat + value)
  else
    match letters with
    | .lower => Char.ofNat ('a'.toNat + (value - 10))
    | .upper => Char.ofNat ('A'.toNat + (value - 10))

/-- The last `width` digits of a number, zeros in front where it has fewer. -/
def digits (letters : Letters) : Nat → Nat → List Char
  | 0, _ => []
  | width + 1, value => digits letters width (value / 16) ++ [digit letters (value % 16)]

def ofNat (letters : Letters) (width value : Nat) : String :=
  String.ofList (digits letters width value)

def ofByte (letters : Letters) (byte : UInt8) : String :=
  ofNat letters 2 byte.toNat

/-- Lower-case digits without a separator. -/
def encode (bytes : List UInt8) : String :=
  String.ofList (bytes.flatMap fun byte => digits .lower 2 byte.toNat)

def value? (c : Char) : Option Nat :=
  if '0' ≤ c ∧ c ≤ '9' then
    some (c.toNat - '0'.toNat)
  else if 'a' ≤ c ∧ c ≤ 'f' then
    some (c.toNat - 'a'.toNat + 10)
  else if 'A' ≤ c ∧ c ≤ 'F' then
    some (c.toNat - 'A'.toNat + 10)
  else
    none

def byte? (high low : Char) : Option UInt8 := do
  let h ← value? high
  let l ← value? low
  return UInt8.ofNat (16 * h + l)

/-- An odd count of digits and any other character are refused. -/
def decodeChars? : List Char → Option (List UInt8)
  | [] => some []
  | [_] => none
  | high :: low :: rest => do
    let byte ← byte? high low
    let bytes ← decodeChars? rest
    return byte :: bytes

def decode? (text : String) : Option (List UInt8) :=
  decodeChars? text.toList

end PowerSink.Hex
