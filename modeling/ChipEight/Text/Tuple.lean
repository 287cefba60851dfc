/-!
# Tuples of numbers

Numbers between round brackets, a comma between two of them. A tuple of one number keeps a comma
behind it.
-/

namespace ChipEight

/-- Numbers as a tuple. -/
def tupleText : List Nat → String
  | [n] => "(" ++ toString n ++ ",)"
  | ns => "(" ++ ", ".intercalate (ns.map toString) ++ ")"

end ChipEight
