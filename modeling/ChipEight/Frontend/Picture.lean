import ChipEight.Screen

/-!
# Pictures

The screen as a window shows it: upside down, since the window's rows count from the bottom, each
pixel a square of `scale` by `scale`, four bytes to a pixel.

A canvas keeps the small picture between one showing and the next. It starts black, painting it
gives each pixel the colour of a pixel of the screen, and its opacity is never touched.

* `length_bytes`: how many bytes a picture has.
-/

namespace ChipEight

/-- A pixel in colour. -/
structure Pixel where
  red : Byte
  green : Byte
  blue : Byte
  /-- How opaque the pixel is. -/
  alpha : Byte
  deriving DecidableEq, Repr

namespace Pixel

/-- The bytes of a pixel. -/
def bytes (p : Pixel) : List Byte := [p.red, p.green, p.blue, p.alpha]

/-- Make a pixel white or black, as opaque as it was. -/
def shade (p : Pixel) (lit : Bool) : Pixel :=
  let level : Byte := if lit then 255 else 0
  { p with red := level, green := level, blue := level }

end Pixel

/-- A small picture of the screen's size, the bottom row first. Nothing shows through it. -/
structure Canvas where
  rows : Vector (Vector Pixel 64) 32
  solid : ∀ (y : Fin 32) (x : Fin 64), rows[y][x].alpha = 255
  deriving DecidableEq

namespace Canvas

/-- The pixel in row `y` from the bottom and column `x`. -/
def pixel (c : Canvas) (y : Fin 32) (x : Fin 64) : Pixel := c.rows[y][x]

theorem alpha_pixel (c : Canvas) (y : Fin 32) (x : Fin 64) : (c.pixel y x).alpha = 255 :=
  c.solid y x

/-- A black canvas. -/
def blank : Canvas where
  rows := .replicate 32 (.replicate 64 ⟨0, 0, 0, 255⟩)
  solid := by simp

/-- Give each pixel the colour of the screen's, whose rows count from the top. -/
def paint (c : Canvas) (s : Screen) : Canvas where
  rows := .ofFn fun y => .ofFn fun x => (c.pixel y x).shade (s.pixel (31 - y) x)
  solid y x := by simpa [Pixel.shade] using c.alpha_pixel y x

end Canvas

/-- A canvas and how much it is enlarged. -/
structure Picture where
  scale : Nat
  canvas : Canvas
  deriving DecidableEq

namespace Picture

/-- Pixels in a row. -/
def width (p : Picture) : Nat := 64 * p.scale

/-- Rows. -/
def height (p : Picture) : Nat := 32 * p.scale

/-- Bytes in a row. -/
def pitch (p : Picture) : Nat := p.width * 4

/-- Repeat each member of a list. -/
def stretch {α : Type} (n : Nat) (xs : List α) : List α := xs.flatMap (List.replicate n)

/-- The pixels of one row of the canvas, stretched. -/
def wide (p : Picture) (line : Vector Pixel 64) : List Pixel := stretch p.scale line.toList

/-- The rows of the picture, the bottom one first. -/
def rows (p : Picture) : List (List Pixel) := stretch p.scale (p.canvas.rows.toList.map p.wide)

/-- The bytes of the picture. -/
def bytes (p : Picture) : List Byte := p.rows.flatMap fun row => row.flatMap Pixel.bytes

theorem length_stretch {α : Type} (n : Nat) (xs : List α) :
    (stretch n xs).length = xs.length * n := by
  simp only [stretch, List.length_flatMap, List.length_replicate, List.map_const',
    List.sum_replicate_nat]

theorem length_wide (p : Picture) (line : Vector Pixel 64) : (p.wide line).length = p.width := by
  simp [wide, width, length_stretch]

theorem length_rows (p : Picture) : p.rows.length = p.height := by
  simp [rows, height, length_stretch]

theorem length_of_mem_rows {p : Picture} {row : List Pixel} (h : row ∈ p.rows) :
    row.length = p.width := by
  simp only [rows, stretch, List.mem_flatMap, List.mem_map, List.mem_replicate] at h
  obtain ⟨_, ⟨line, _, rfl⟩, _, rfl⟩ := h
  exact length_wide p line

theorem length_flatMap_bytes (row : List Pixel) :
    (row.flatMap Pixel.bytes).length = row.length * 4 := by
  have four (p : Pixel) : p.bytes.length = 4 := rfl
  simp only [List.length_flatMap, four, List.map_const', List.sum_replicate_nat]

theorem length_bytes (p : Picture) : p.bytes.length = p.height * p.pitch := by
  have total (rows : List (List Pixel)) (h : ∀ row ∈ rows, row.length = p.width) :
      (rows.flatMap fun row => row.flatMap Pixel.bytes).length = rows.length * p.pitch := by
    induction rows with
    | nil => simp
    | cons row rest ih =>
      rw [List.flatMap_cons, List.length_append, length_flatMap_bytes, h row List.mem_cons_self,
        ih fun r hr => h r (List.mem_cons_of_mem _ hr), List.length_cons, Nat.succ_mul, pitch,
        Nat.add_comm]
  rw [bytes, total p.rows fun _ => length_of_mem_rows, length_rows]

end Picture
end ChipEight
