import ChipEight.Text.Hex
import ChipEight.Text.Printable

/-!
# Quoted text

A text between quotes, so that it can be told apart in a message. The quotes are single unless the
text holds a single quote and no double one. The quote in use and the backslash are escaped, as are
all characters that are not printable.
-/

namespace ChipEight
namespace Quoted

/-- The last digits of a code point in lower-case hexadecimal. -/
def code (digits n : Nat) : List Char := (Hex.fixed digits n).map Char.toLower

/-- A character that is not shown as it is, by the shortest of the three numeric escapes. -/
def numeric (c : Char) : List Char :=
  if c.toNat < 0x100 then '\\' :: 'x' :: code 2 c.toNat
  else if c.toNat < 0x10000 then '\\' :: 'u' :: code 4 c.toNat
  else '\\' :: 'U' :: code 8 c.toNat

/-- A character between a pair of quotes. -/
def escape (quote c : Char) : List Char :=
  if c = quote ∨ c = '\\' then ['\\', c]
  else if c = '\n' then ['\\', 'n']
  else if c = '\r' then ['\\', 'r']
  else if c = '\t' then ['\\', 't']
  else if isPrintable c then [c]
  else numeric c

/-- The quote that a text is put between. -/
def quoteFor (text : List Char) : Char :=
  if text.contains '\'' && !text.contains '"' then '"' else '\''

end Quoted

/-- A text between quotes. -/
def quoted (text : String) : String :=
  let quote := Quoted.quoteFor text.toList
  String.ofList (quote :: text.toList.flatMap (Quoted.escape quote) ++ [quote])

end ChipEight
