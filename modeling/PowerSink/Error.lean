/-!
# Refused requests

A sector number must name one of the five sectors and a flat image must have its exact length.
The text of a refusal shows the offending number as it was given, never a narrowed one.
-/

namespace PowerSink

inductive ImageError where
  | outOfRange (index : Nat)
  | invalidLength (length : Nat)
  deriving DecidableEq

namespace ImageError

def kind : ImageError → String
  | outOfRange _ => "OutOfRange"
  | invalidLength _ => "InvalidLength"

def amount : ImageError → Nat
  | outOfRange index => index
  | invalidLength length => length

def text (error : ImageError) : String :=
  error.kind ++ "(" ++ toString error.amount ++ ")"

end ImageError

end PowerSink
