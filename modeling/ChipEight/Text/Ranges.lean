/-!
# Character ranges

Sets of characters as lists of ranges of code points, both ends included.
-/

namespace ChipEight

/-- A set of characters. -/
abbrev CharRanges := List (Nat × Nat)

namespace CharRanges

/-- The range that holds a character. -/
def find? (ranges : CharRanges) (c : Char) : Option (Nat × Nat) :=
  List.find? (fun range => range.1 ≤ c.toNat && c.toNat ≤ range.2) ranges

/-- Is the character in one of the ranges? -/
def contains (ranges : CharRanges) (c : Char) : Bool := (ranges.find? c).isSome

end CharRanges
end ChipEight
