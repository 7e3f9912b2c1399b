/-!
# Bracketed lists

The items of a list between square brackets, a comma and a blank between neighbours.
-/

namespace PowerSink

def bracketed (items : List String) : String :=
  "[" ++ ", ".intercalate items ++ "]"

end PowerSink
