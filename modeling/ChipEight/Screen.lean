import ChipEight.Word

/-!
# Screen

32 rows of 64 pixels. A row is a word of 64 bits whose most significant bit is the leftmost pixel.

A sprite is first laid out on an empty screen: its origin is inside the screen, and what hangs off
the right or the bottom edge is cut away. Drawing flips the pixels of that layout.

* `pixel_xor`: drawing flips a pixel exactly where the layout is lit.
* `pixel_layout`: which pixels of a layout are lit.
* `xor_xor_cancel`: drawing the same layout twice changes nothing.
-/

namespace ChipEight

/-- One row of pixels. -/
abbrev PixelRow := BitVec 64

/-- The picture that a program draws. -/
structure Screen where
  rows : Vector PixelRow 32
  deriving DecidableEq

namespace Screen

/-- All pixels dark. -/
def dark : Screen := ⟨Vector.replicate 32 0⟩

/-- One row, dark outside the screen. -/
def row (s : Screen) (r : Nat) : PixelRow := s.rows.toArray.getD r 0

/-- Is the pixel in row `r` and column `c` lit? -/
def pixel (s : Screen) (r c : Nat) : Bool := (s.row r).getMsbD c

/-- All pixels, row after row. -/
def pixels (s : Screen) : List Bool :=
  s.rows.toList.flatMap fun line => (List.range 64).map line.getMsbD

/-- A byte as eight pixels from column `c` on, cut at the right edge. -/
def strip (b : Byte) (c : Nat) : PixelRow := (b.setWidth 64 <<< 56) >>> c

/-- A sprite with its top left corner in row `r` and column `c` of an otherwise dark screen. -/
def layout (r c : Nat) (sprite : List Byte) : Screen :=
  ⟨Vector.ofFn fun k => if r ≤ k then strip (sprite.getD (k - r) 0) c else 0⟩

/-- The pixels lit in exactly one of two screens. -/
def xor (s t : Screen) : Screen := ⟨s.rows.zipWith (· ^^^ ·) t.rows⟩

/-- Is some pixel lit in both screens? -/
def overlaps (s t : Screen) : Bool := (s.rows.zipWith (· &&& ·) t.rows).any (· != 0)

theorem row_of_lt (s : Screen) {r : Nat} (h : r < 32) : s.row r = s.rows[r] := by
  simp [row, Array.getD, h]

theorem row_of_le (s : Screen) {r : Nat} (h : 32 ≤ r) : s.row r = 0 := by
  simp [row, Array.getD, Nat.not_lt.2 h]

theorem ext_row {s t : Screen} (h : ∀ r, r < 32 → s.row r = t.row r) : s = t := by
  cases s with
  | mk rows =>
    cases t with
    | mk rows' =>
      congr 1
      apply Vector.ext
      intro r hr
      simpa [row_of_lt _ hr] using h r hr

theorem ext_pixel {s t : Screen} (h : ∀ r c, r < 32 → c < 64 → s.pixel r c = t.pixel r c) :
    s = t := by
  apply ext_row
  intro r hr
  apply BitVec.eq_of_getMsbD_eq
  intro c hc
  exact h r c hr hc

theorem row_xor (s t : Screen) (r : Nat) : (s.xor t).row r = s.row r ^^^ t.row r := by
  by_cases h : r < 32
  · simp [row_of_lt _ h, xor]
  · simp [row_of_le _ (Nat.not_lt.1 h)]

theorem pixel_xor (s t : Screen) (r c : Nat) :
    (s.xor t).pixel r c = (s.pixel r c ^^ t.pixel r c) := by
  simp [pixel, row_xor]

theorem xor_xor_cancel (s t : Screen) : (s.xor t).xor t = s := by
  apply ext_row
  intro r _
  rw [row_xor, row_xor, BitVec.xor_assoc, BitVec.xor_self, BitVec.xor_zero]

theorem row_layout (r c : Nat) (sprite : List Byte) {k : Nat} (h : k < 32) :
    (layout r c sprite).row k = if r ≤ k then strip (sprite.getD (k - r) 0) c else 0 := by
  simp [row_of_lt _ h, layout]

theorem pixel_strip (b : Byte) (c k : Nat) (hk : k < 64) :
    (strip b c).getMsbD k = (decide (c ≤ k ∧ k < c + 8) && b.getMsbD (k - c)) := by
  simp only [strip, BitVec.getMsbD_ushiftRight, BitVec.getMsbD_shiftLeft, BitVec.getMsbD_setWidth]
  by_cases h1 : c ≤ k
  · have h2 : ¬ k < c := by omega
    by_cases h3 : k < c + 8
    · simp [h1, h2, h3, hk]
    · have h4 : 8 ≤ k - c := by omega
      simp [h3, BitVec.getMsbD_of_ge _ _ h4]
  · have h2 : k < c := by omega
    simp [h1, h2]

theorem pixel_layout (r c : Nat) (sprite : List Byte) (i j : Nat) (hi : i < 32) (hj : j < 64) :
    (layout r c sprite).pixel i j =
      (decide (r ≤ i ∧ c ≤ j ∧ j < c + 8) && (sprite.getD (i - r) 0).getMsbD (j - c)) := by
  rw [pixel, row_layout _ _ _ hi]
  by_cases h : r ≤ i
  · simp [h, pixel_strip _ _ _ hj]
  · simp [h]

end Screen
end ChipEight
