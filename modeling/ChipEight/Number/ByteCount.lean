import ChipEight.Number.FixedPoint

/-!
# Byte counts

A number of bytes as a reader takes it in: in the largest binary unit that leaves at least one, with
three significant digits, or with all digits before the point where there are four. The point is
written also where no digit follows it.

* `significant_lt`: three digits are enough for what is written with places after the point.
-/

namespace ChipEight
namespace ByteCount

/-- The units, each 1024 times the one before. -/
def units : List String := ["bytes", "KiB", "MiB", "GiB", "TiB", "PiB", "EiB"]

/-- A quotient in units of `10 ^ -places`, rounded. -/
def scaled (places num den : Nat) : Nat := roundQuotient (Nat.pow 10 places * num) den

/-- The most places, up to two, that leave a quotient three digits; none if it has more than three
before the point. -/
def places (num den : Nat) : Nat :=
  if scaled 2 num den < 1000 then 2 else if scaled 1 num den < 1000 then 1 else 0

/-- A quotient with three significant digits. -/
def significant (num den : Nat) : String :=
  match places num den with
  | 0 => toString (scaled 0 num den) ++ "."
  | p => pointed p (scaled p num den)

theorem significant_lt {num den : Nat} (h : places num den ≠ 0) :
    scaled (places num den) num den < 1000 := by
  revert h
  unfold places
  split
  · exact fun _ => by assumption
  · split
    · exact fun _ => by assumption
    · exact fun h => absurd rfl h

/-- Which unit a number of bytes is given in; one that rounds to 1024 of a unit takes the next. -/
def unitOf (bytes : Nat) : Nat :=
  let unit := max bytes.log2 1 / 10
  min (if roundQuotient bytes (Nat.pow 1024 unit) = 1024 then unit + 1 else unit) (units.length - 1)

/-- A number of bytes in its unit. -/
def text (bytes : Nat) : String :=
  let unit := unitOf bytes
  (if unit = 0 then toString bytes else significant bytes (Nat.pow 1024 unit)) ++ " " ++
    units.getD unit ""

end ByteCount
end ChipEight
