import ChipEight.Number.ByteCount
import ChipEight.Text.Tuple

/-!
# Pictures that are too large

A picture is made in two passes, each from the one before: the rows of the screen are repeated, then
the pixels in each row. Lengths and byte counts are signed words of 64 bits, and the host has only
so much memory. A picture that is not enlarged needs neither pass.

* `oversize?_one`: a picture as large as the screen can always be made.
-/

namespace ChipEight

/-- Why a picture cannot be made. -/
inductive Oversize where
  /-- The scale is no signed word. -/
  | scale
  /-- The number of rows runs over into the sign. -/
  | rows
  /-- The number of bytes is no signed word. -/
  | bytes
  /-- There is no memory for as many rows, pixels in a row, and bytes in a pixel. -/
  | memory (shape : List Nat)
  deriving DecidableEq, Repr

namespace Oversize

/-- The text of a refusal to make a picture. -/
def message : Oversize → String
  | .scale => "The scale is out of range"
  | .rows => "The picture has too many rows"
  | .bytes => "The picture has too many bytes"
  | .memory shape =>
    "Unable to allocate " ++ ByteCount.text (shape.foldl (· * ·) 1) ++
      " for an array with shape " ++ tupleText shape

/-- What signed words stay below. -/
def wordLimit : Nat := 1 <<< 63

/-- Why the bytes of one pass cannot be had on a host that has so many. -/
def ofShape? (available : Nat) (shape : List Nat) : Option Oversize :=
  let bytes := shape.foldl (· * ·) 1
  if wordLimit ≤ bytes then some .bytes
  else if available < bytes then some (.memory shape)
  else none

end Oversize

/-- Why the screen cannot be enlarged by a scale on a host that has so many bytes. -/
def oversize? (available scale : Nat) : Option Oversize :=
  if scale = 1 then none
  else if Oversize.wordLimit ≤ scale then some .scale
  else
    let rows := 32 * scale % 1 <<< 64
    if Oversize.wordLimit ≤ rows then some .rows
    else (Oversize.ofShape? available [rows, 64, 4]).or
      (Oversize.ofShape? available [rows, 64 * scale, 4])

theorem oversize?_one (available : Nat) : oversize? available 1 = none := rfl

end ChipEight
