import ChipEight.Proofs.Rendering
import ChipEight.Proofs.Requests

/-!
# How an image is built

The frontend turns the screen upside down, colours it, repeats its rows and then the pixels in each
row, and hands over the bytes in their order. A picture that is not enlarged needs neither pass.

* `Screen.coloured`, `Picture.enlarge`: the small picture and the two passes over it;
  `Picture.bytes_eq_enlarge` says that the bytes of a picture come out of them.
* `Frontend.opens_window`: what the window is opened with.
* `Frontend.image_byte_by_byte`: the size of an image, and each of its bytes.
-/

namespace ChipEight

/-- The bytes of a pixel that is lit or not. -/
def Picture.colour (lit : Bool) : List Byte :=
  let level : Byte := if lit then 255 else 0
  [level, level, level, 255]

/-- The screen in colour, the bottom row first: in each row its pixels, each pixel as its bytes. -/
def Screen.coloured (s : Screen) : List (List (List Byte)) :=
  s.rows.toList.reverse.map fun line =>
    (List.range 64).map fun column => Picture.colour (line.getMsbD column)

/-- A painted canvas has the coloured screen. -/
theorem Canvas.coloured_eq (c : Canvas) (s : Screen) :
    s.coloured = (c.paint s).rows.toList.map fun line => line.toList.map Pixel.bytes := by
  have bytes_shade (y : Fin 32) (x : Fin 64) (lit : Bool) :
      ((c.pixel y x).shade lit).bytes = Picture.colour lit := by
    rw [Pixel.bytes, Pixel.shade, c.alpha_pixel, Picture.colour]
  refine List.ext_getElem (by simp [Screen.coloured]) fun y hy _ => ?_
  refine List.ext_getElem (by simp [Screen.coloured]) fun x hx _ => ?_
  have inside : y < 32 := by simpa [Screen.coloured] using hy
  have within : x < 64 := by simpa [Screen.coloured] using hx
  have painted := congrArg Pixel.bytes (c.pixel_paint s ⟨y, inside⟩ ⟨x, within⟩)
  rw [bytes_shade, Screen.pixel, Screen.row_of_lt _ (Nat.sub_lt_succ 31 _)] at painted
  simpa [Screen.coloured, Canvas.pixel] using painted.symm

namespace Picture

section Passes

variable {α β : Type}

/-- Repeat the rows of a picture and then the pixels in each row, unless it is to stay as it is. -/
def enlarge (scale : Nat) (rows : List (List α)) : List (List α) :=
  if scale = 1 then rows else (stretch scale rows).map (stretch scale)

theorem stretch_one (xs : List α) : stretch 1 xs = xs :=
  List.flatMap_singleton' xs

theorem stretch_map (n : Nat) (g : α → β) (xs : List α) :
    stretch n (xs.map g) = (stretch n xs).map g := by
  simp [stretch, List.flatMap_map, List.map_flatMap]

/-- Leaving a picture as it is comes to the same as two passes that repeat everything once. -/
theorem enlarge_eq (scale : Nat) (rows : List (List α)) :
    enlarge scale rows = (stretch scale rows).map (stretch scale) := by
  unfold enlarge
  split
  next one =>
    have same : stretch 1 = (id : List α → List α) := funext stretch_one
    rw [one, stretch_one, same, List.map_id]
  next =>
    rfl

end Passes

/-- Each row of a picture is a row of the enlarged screen. -/
theorem enlarge_coloured (scale : Nat) (c : Canvas) (s : Screen) :
    enlarge scale s.coloured =
      (rows ⟨scale, c.paint s⟩).map fun row => row.map Pixel.bytes := by
  -- Both passes and the bytes are told pixel by pixel, so that their order does not matter.
  rw [enlarge_eq, c.coloured_eq, rows, stretch_map, stretch_map, List.map_map, List.map_map]
  exact List.map_congr_left fun line _ => stretch_map scale Pixel.bytes line.toList

theorem bytes_eq_enlarge (scale : Nat) (c : Canvas) (s : Screen) :
    bytes ⟨scale, c.paint s⟩ = (enlarge scale s.coloured).flatten.flatten := by
  rw [enlarge_coloured scale c, bytes, List.flatten_flatten, List.map_map, List.flatMap_def]
  rfl

end Picture

theorem Turn.requests_andThen_prefix (turn : Turn) (go : Frontend → Turn) :
    turn.requests <+: (turn.andThen go).requests := by
  unfold andThen
  split
  next =>
    exact List.prefix_refl _
  next =>
    exact List.prefix_append _ _

namespace Frontend

/-- The window is as large as the picture in it. -/
theorem opens_window (f : Frontend) :
    [.openWindow f.picture.width f.picture.height caption] <+: f.openWindow.requests := by
  let built : Turn := { state := f, requests := f.buildRequests }
  let loaded : Turn := built.andThen (·.selectRom 0)
  have asks : [.openWindow f.picture.width f.picture.height caption] <+: built.requests :=
    List.prefix_append _ _
  have loads : built.requests <+: loaded.requests := built.requests_andThen_prefix _
  have paces : loaded.requests <+: f.openWindow.requests := loaded.requests_andThen_prefix _
  exact asks.trans (loads.trans paces)

/-- **An image shows the screen byte by byte.** For any screen and any scale `s` the image that is
handed over has the bytes of the coloured screen, bottom row first, with each row and then each
pixel repeated `s` times. There are four for each pixel of the window, and the byte of a channel is
`255` for the opacity and where the pixel of the screen is lit, and `0` elsewhere. -/
theorem image_byte_by_byte (f : Frontend) (pending : f.engine.machine.redraw = true) :
    let s := f.setup.scale
    [.openWindow (64 * s) (32 * s) caption] <+: f.openWindow.requests ∧
    ∃ image : Picture,
      f.updateImage.requests = [.setImage image] ∧
      image.bytes =
        (Picture.enlarge s f.engine.machine.screen.coloured).flatten.flatten ∧
      image.pitch = 4 * (64 * s) ∧
      image.bytes.length = (64 * s) * (32 * s) * 4 ∧
      image.bytes.length = image.pitch * (32 * s) ∧
      ∀ row column channel, row < 32 * s → column < 64 * s → channel < 4 →
        image.bytes[4 * (row * (64 * s) + column) + channel]? =
          some (if channel = 3 ∨
              f.engine.framebuffer[64 * (31 - row / s) + column / s]? = some true
            then 255 else 0) := by
  intro s
  let image : Picture := f.noted.picture
  have painted : image = ⟨s, f.canvas.paint f.engine.machine.screen⟩ := by
    simp only [image, picture, noted, freshCanvas, pending, if_true, s]
  have renders : Renders s f.engine.framebuffer image.bytes := by
    rw [painted]
    exact Picture.renders_bytes _ _ _
  have pitch_eq : image.pitch = 4 * (64 * s) := Nat.mul_comm _ _
  have length_eq : image.bytes.length = (64 * s) * (32 * s) * 4 := by
    rw [renders.length_eq, Nat.mul_comm (32 * s)]
  refine ⟨f.opens_window, image, ?_, ?_, pitch_eq, length_eq, ?_, ?_⟩
  · rw [updateImage_eq, imageRequests, if_pos pending]
  · rw [painted]
    exact Picture.bytes_eq_enlarge _ _ _
  · rw [image.length_bytes, Nat.mul_comm]
    rfl
  · intro row column channel hrow hcolumn hchannel
    rw [Nat.mul_comm row]
    exact renders.byte_eq row column channel hrow hcolumn hchannel

/-- A frontend that is to show a screen with one lit pixel, the second one of its upper edge. -/
def dotted (scale : Nat) : Frontend where
  setup := { roms := ["ROM"], files := fun _ => .error .missing, scale, rate := 1 }
  engine :=
    { machine := { Machine.boot (.cycle #[]) with screen := .layout 0 0 [0x40], redraw := true }
      log := ⟨.error, false⟩ }
  soundEnabled := false

/-- Three times as large, the pixel takes three columns of the window's upper rows; as large as the
screen, it is one pixel of the last row. Elsewhere only the opacity is not zero. -/
theorem image_byte_by_byte_dotted :
    (∃ image : Picture, (dotted 3).updateImage.requests = [.setImage image] ∧
      image.bytes[4 * (95 * (64 * 3) + 5) + 0]? = some 255 ∧
      image.bytes[4 * (95 * (64 * 3) + 6) + 0]? = some 0 ∧
      image.bytes[4 * (92 * (64 * 3) + 5) + 0]? = some 0 ∧
      image.bytes[4 * (92 * (64 * 3) + 5) + 3]? = some 255) ∧
    ∃ image : Picture, (dotted 1).updateImage.requests = [.setImage image] ∧
      image.bytes[4 * (31 * (64 * 1) + 1) + 2]? = some 255 := by
  obtain ⟨-, image, handed, -, -, -, -, byte_eq⟩ := (dotted 3).image_byte_by_byte rfl
  obtain ⟨-, small, handedSmall, -, -, -, -, byte_eq_small⟩ := (dotted 1).image_byte_by_byte rfl
  refine ⟨⟨image, handed, ?_, ?_, ?_, ?_⟩, small, handedSmall, ?_⟩
  · exact (byte_eq 95 5 0 (by decide) (by decide) (by decide)).trans (by decide +kernel)
  · exact (byte_eq 95 6 0 (by decide) (by decide) (by decide)).trans (by decide +kernel)
  · exact (byte_eq 92 5 0 (by decide) (by decide) (by decide)).trans (by decide +kernel)
  · exact (byte_eq 92 5 3 (by decide) (by decide) (by decide)).trans (by decide +kernel)
  · exact (byte_eq_small 31 1 2 (by decide) (by decide) (by decide)).trans (by decide +kernel)

end Frontend
end ChipEight
