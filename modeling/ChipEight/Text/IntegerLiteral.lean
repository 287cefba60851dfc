import ChipEight.Text.DecimalDigit

/-!
# Integer literals

An integer as people type it: blanks around it, a sign, and decimal digits of any script, which
single underscores may group. A literal of more than 4300 digits is refused.
-/

namespace ChipEight
namespace IntegerLiteral

/-- The longest literal that is read, in digits. -/
def maxDigits : Nat := 4300

/-- Blank characters beyond the basic ones. -/
def wideBlanks : CharRanges := [
  (0x85, 0x85), (0xA0, 0xA0), (0x1680, 0x1680), (0x2000, 0x200A), (0x2028, 0x2029),
  (0x202F, 0x202F), (0x205F, 0x205F), (0x3000, 0x3000)]

/-- May the character stand around a literal? -/
def isBlank (c : Char) : Bool :=
  c = ' ' || (9 ≤ c.toNat && c.toNat ≤ 13) || wideBlanks.contains c

/-- Leave out the blanks at both ends. -/
def trim (text : List Char) : List Char :=
  ((text.dropWhile isBlank).reverse.dropWhile isBlank).reverse

/-- The digits of a run in which an underscore stands only between two digits. -/
def digits? : List Char → Option (List Nat)
  | [] => none
  | [c] => (decimalValue? c).map ([·])
  | c :: '_' :: rest => do
    let d ← decimalValue? c
    return d :: (← digits? rest)
  | c :: rest => do
    let d ← decimalValue? c
    return d :: (← digits? rest)

/-- The sign in front of a literal, true for minus, and what follows it. -/
def sign : List Char → Bool × List Char
  | '-' :: rest => (true, rest)
  | '+' :: rest => (false, rest)
  | text => (false, text)

end IntegerLiteral

open IntegerLiteral in
/-- The integer that a text spells. -/
def readInteger? (text : String) : Option Int :=
  let (negative, body) := sign (trim text.toList)
  match digits? body with
  | none => none
  | some ds =>
    if maxDigits < ds.length then none
    else
      let magnitude : Nat := ds.foldl (fun n d => 10 * n + d) 0
      some (if negative then -(magnitude : Int) else magnitude)

end ChipEight
