import ChipEight.Frontend.Picture
import ChipEight.Proofs.Redraw

/-!
# What a picture shows

A picture has four bytes for each of its pixels, row after row from the bottom. Each pixel of the
screen is a square of pixels of the picture.

* `Canvas.paint_eq`: what is painted over leaves no trace, since only colours are painted and nothing
  shows through a canvas.
* `Picture.getElem?_rows`, `Picture.getElem?_wide`: which row of the canvas is in a row of the
  picture, and which of its pixels in a column.
* `Renders`: bytes that show pixels at a scale; `Picture.renders_bytes` says that those of a painted
  canvas do.
-/

namespace ChipEight

/-- Bytes that show the pixels of a screen, each as a square with sides of `scale`: row after row
from the bottom, and red, green, blue and opacity of each pixel. -/
structure Renders (scale : Nat) (pixels : List Bool) (bytes : List Byte) : Prop where
  length_eq : bytes.length = 32 * scale * (64 * scale) * 4
  byte_eq : ∀ row column channel,
    row < 32 * scale → column < 64 * scale → channel < 4 →
    bytes[4 * (64 * scale * row + column) + channel]? =
      some (if channel = 3 ∨ pixels[64 * (31 - row / scale) + column / scale]? = some true
        then 255 else 0)

theorem Pixel.shade_eq {p q : Pixel} (alike : p.alpha = q.alpha) (lit : Bool) :
    p.shade lit = q.shade lit := by
  rw [shade, shade, alike]

theorem Pixel.getElem?_bytes_shade {p : Pixel} (solid : p.alpha = 255) (lit : Bool) {channel : Nat}
    (hchannel : channel < 4) :
    (p.shade lit).bytes[channel]? = some (if channel = 3 ∨ lit = true then 255 else 0) := by
  have all : ∀ lit : Bool, ∀ channel < 4,
      (Pixel.shade ⟨0, 0, 0, 255⟩ lit).bytes[channel]? =
        some (if channel = 3 ∨ lit = true then 255 else 0) := by
    decide
  rw [shade_eq (q := ⟨0, 0, 0, 255⟩) solid]
  exact all lit channel hchannel

namespace Canvas

theorem ext_pixels {c d : Canvas} (h : ∀ y x, c.pixel y x = d.pixel y x) : c = d := by
  have rows : c.rows = d.rows :=
    Vector.ext fun y hy => Vector.ext fun x hx => h ⟨y, hy⟩ ⟨x, hx⟩
  cases c
  cases d
  cases rows
  rfl

theorem pixel_paint (c : Canvas) (s : Screen) (y : Fin 32) (x : Fin 64) :
    (c.paint s).pixel y x = (c.pixel y x).shade (s.pixel (31 - y) x) := by
  simp [pixel, paint]

/-- Whatever a canvas had on it, once the screen is painted it has the screen. -/
theorem paint_eq (c : Canvas) (s : Screen) : c.paint s = blank.paint s := by
  refine ext_pixels fun y x => ?_
  rw [pixel_paint, pixel_paint]
  exact Pixel.shade_eq ((c.alpha_pixel y x).trans (blank.alpha_pixel y x).symm) _

/-- A blank canvas is one with a dark screen on it. -/
theorem blank_eq : blank = blank.paint .dark := by
  refine ext_pixels fun y x => ?_
  have dark : Screen.dark.pixel (31 - y) x = false := by
    rw [Screen.pixel, Screen.row_of_lt _ (Nat.sub_lt_succ 31 _)]
    simp [Screen.dark]
  rw [pixel_paint, dark]
  simp [pixel, blank, Pixel.shade]

end Canvas

namespace Picture

theorem getElem?_stretch {α : Type} {n : Nat} (xs : List α) (i : Nat) (hn : 0 < n) :
    (stretch n xs)[i]? = xs[i / n]? := by
  have within : i % n < n := Nat.mod_lt i hn
  have copies : ∀ x ∈ xs, (List.replicate n x).length = n := fun _ _ => List.length_replicate
  have block := getElem?_flatMap_blocks copies (i / n) within
  rw [Nat.div_add_mod] at block
  rw [stretch, block]
  cases xs[i / n]? with
  | none =>
      rfl
  | some x =>
      simp [within]

theorem getElem?_wide (p : Picture) (pixels : Vector Pixel 64) {column : Nat}
    (hcolumn : column < 64 * p.scale) :
    ∃ x : Fin 64, x.val = column / p.scale ∧ (p.wide pixels)[column]? = some pixels[x] := by
  have inside : column / p.scale < 64 := Nat.div_lt_of_lt_mul (by rwa [Nat.mul_comm])
  refine ⟨⟨column / p.scale, inside⟩, rfl, ?_⟩
  rw [wide, getElem?_stretch _ _ (Nat.pos_of_lt_mul_left hcolumn)]
  simp [inside]

theorem getElem?_rows (p : Picture) {row : Nat} (hrow : row < 32 * p.scale) :
    ∃ y : Fin 32, y.val = row / p.scale ∧ p.rows[row]? = some (p.wide p.canvas.rows[y]) := by
  have inside : row / p.scale < 32 := Nat.div_lt_of_lt_mul (by rwa [Nat.mul_comm])
  refine ⟨⟨row / p.scale, inside⟩, rfl, ?_⟩
  rw [rows, getElem?_stretch _ _ (Nat.pos_of_lt_mul_left hrow)]
  simp [inside]

/-- A picture of a painted canvas shows the screen at its scale. -/
theorem renders_bytes (scale : Nat) (c : Canvas) (s : Screen) :
    Renders scale s.pixels (bytes ⟨scale, c.paint s⟩) where
  length_eq := by
    simp only [length_bytes, height, pitch, width, Nat.mul_assoc]
  byte_eq := by
    intro row column channel hrow hcolumn hchannel
    have block : ∀ line ∈ rows ⟨scale, c.paint s⟩,
        (line.flatMap Pixel.bytes).length = 4 * (64 * scale) := by
      intro line hline
      rw [length_flatMap_bytes, length_of_mem_rows hline, width, Nat.mul_comm]
    -- Whole rows of the picture come first, then whole pixels of the row.
    have place : 4 * (64 * scale * row + column) + channel =
        4 * (64 * scale) * row + (4 * column + channel) := by
      rw [Nat.mul_add, ← Nat.mul_assoc 4 (64 * scale), Nat.add_assoc]
    obtain ⟨y, hy, lineAt⟩ := getElem?_rows ⟨scale, c.paint s⟩ hrow
    obtain ⟨x, hx, pixelAt⟩ := getElem?_wide ⟨scale, c.paint s⟩ (c.paint s).rows[y] hcolumn
    have four (p : Pixel) (_ : p ∈ wide ⟨scale, c.paint s⟩ (c.paint s).rows[y]) :
        p.bytes.length = 4 := rfl
    rw [place, bytes, getElem?_flatMap_blocks block _ (by omega), lineAt, Option.bind_some,
      getElem?_flatMap_blocks four _ hchannel, pixelAt, Option.bind_some, ← Canvas.pixel,
      Canvas.pixel_paint, Pixel.getElem?_bytes_shade (c.alpha_pixel y x) _ hchannel]
    simp only at hx hy
    rw [← hx, ← hy, Screen.getElem?_pixels _ (Nat.sub_lt_succ 31 _) x.isLt]
    simp

end Picture
end ChipEight
