import ChipEight.Proofs.Rendering
import ChipEight.Proofs.Requests

/-!
# What the window shows

The window shows the picture that it was last given: that of the frontend's canvas. The frontend
hands over a black one at the start. Then, at the end of a tick that completes a cycle, it paints the
screen on the canvas and hands that over, if a redraw is called for.

* `Shows`: the window was last given the picture of the canvas, and the screen on the canvas is
  current while no redraw is called for.
* `Shows.handle`, `shows_after`: every event keeps that up, so that it holds at any point of a run.
* `window_shows_screen`: the bytes that the window shows, and what a tick does to them.
-/

namespace ChipEight
namespace Frontend

/-- The window was last given the picture of the canvas. There is a screen on the canvas, and it is
the machine's unless a redraw is called for. -/
structure Shows (f : Frontend) (pictures : List Picture) : Prop where
  last : pictures.getLast? = some f.picture
  current : ∃ shown, f.canvas = Canvas.blank.paint shown ∧ f.engine.Current shown.pixels

theorem Shows.renders {f : Frontend} {pictures : List Picture} (h : f.Shows pictures)
    (settled : f.engine.machine.redraw = false) :
    Renders f.setup.scale f.engine.framebuffer f.picture.bytes := by
  obtain ⟨shown, painted, current⟩ := h.current
  rw [picture, painted, ← current settled]
  exact Picture.renders_bytes _ _ _

theorem redraw_cycled (f : Frontend) : f.cycled.engine.machine.redraw = false := by
  simp only [cycled, noted, Engine.takeRedraw, Machine.noteRedraw]

theorem framebuffer_cycled (f : Frontend) :
    f.cycled.engine.framebuffer = f.feedKeys.stepped.engine.framebuffer := by
  simp only [cycled, noted, Engine.framebuffer, Engine.takeRedraw, Machine.noteRedraw]

theorem canvas_cycled (f : Frontend) : f.cycled.canvas = f.feedKeys.stepped.freshCanvas := by
  simp only [cycled, noted]

section Handled

variable {f f' : Frontend} {event : Event}

/-- Only a tick that completes a cycle paints. -/
theorem Handled.canvas_eq (h : Handled f event f')
    (incomplete : ¬ (event = .tick ∧ f.Completes)) : f'.canvas = f.canvas := by
  cases h with
  | completed h =>
      exact absurd ⟨rfl, h⟩ incomplete
  | _ =>
      simp only [feedKeys]

/-- Without a picture handed over the old one stays current. -/
theorem Handled.current (h : Handled f event f') (incomplete : ¬ (event = .tick ∧ f.Completes))
    {copy : List Bool} (current : f.engine.Current copy) : f'.engine.Current copy := by
  cases h with
  | stopped =>
      exact current.arm _
  | completed h =>
      exact absurd ⟨rfl, h⟩ incomplete
  | failed =>
      have stepped : f.feedKeys.engine.step.engine.Current copy := (current.arm _).step
      exact stepped
  | advanced =>
      rintro ⟨⟩
  | _ =>
      exact current

/-- A tick that completes a cycle paints the screen and hands the picture over if a redraw is called
for, and the canvas has the current screen in either case. -/
theorem Completes.shows {f : Frontend} (h : f.Completes) {pictures : List Picture}
    (shows : f.Shows pictures) :
    f.tick.state.Shows (pictures ++ Request.pictures f.tick.requests) := by
  obtain ⟨shown, painted, current⟩ := shows.current
  have stepped : f.feedKeys.stepped.engine.Current shown.pixels := (current.arm _).step
  rw [pictures_tick_of_completes h, tick_of_completes h]
  -- The screen is painted, or the cycle left the flag down and with it the screen as it was.
  cases pending : f.feedKeys.stepped.engine.machine.redraw with
  | true =>
      refine ⟨by simp, f.feedKeys.stepped.engine.machine.screen, ?_, fun _ => ?_⟩
      · rw [canvas_cycled, freshCanvas, pending, if_pos rfl, Canvas.paint_eq]
      · rw [framebuffer_cycled]
        rfl
  | false =>
      have kept : f.cycled.canvas = f.canvas := by
        rw [canvas_cycled, freshCanvas, pending]
        rfl
      have same : f.cycled.picture = f.picture := by
        rw [picture, picture, setup_cycled, kept]
      refine ⟨?_, shown, kept.trans painted, fun _ => ?_⟩
      · simpa [same] using shows.last
      · rw [framebuffer_cycled]
        exact stepped pending

theorem Shows.handle {pictures : List Picture} (shows : f.Shows pictures) (event : Event) :
    (f.handle event).state.Shows (pictures ++ Request.pictures (f.handle event).requests) := by
  by_cases h : event = .tick ∧ f.Completes
  · obtain ⟨rfl, completes⟩ := h
    exact completes.shows shows
  · have handled := f.handle_handled event
    obtain ⟨shown, painted, current⟩ := shows.current
    refine ⟨?_, shown, (handled.canvas_eq h).trans painted, handled.current h current⟩
    rw [pictures_handle h, List.append_nil, picture, handled.setup_eq, handled.canvas_eq h]
    exact shows.last

end Handled

/-- The pictures that the window has been given when events have happened, the first one first. -/
def picturesAfter (opened : Turn) (events : List Event) : List Picture :=
  Request.pictures (opened.requests ++ opened.state.requestsAfter events)

theorem picturesAfter_concat (opened : Turn) (events : List Event) (event : Event) :
    picturesAfter opened (events ++ [event]) =
      picturesAfter opened events ++
        Request.pictures ((opened.state.after events).handle event).requests := by
  rw [picturesAfter, picturesAfter, requestsAfter_concat, ← List.append_assoc,
    Request.pictures_append]

/-- The picture that the window is built with is black, and a redraw is called for. -/
theorem shows_openWindow {f : Frontend} (blank : f.canvas = .blank) :
    f.openWindow.state.Shows (picturesAfter f.openWindow []) := by
  obtain ⟨memory, running, hstate, hpictures⟩ := f.openWindow_eq
  refine ⟨?_, .dark, ?_, ?_⟩
  · rw [picturesAfter, requestsAfter, List.append_nil, hpictures, hstate]
    rfl
  · rw [hstate]
    exact blank.trans Canvas.blank_eq
  · rw [hstate]
    rintro ⟨⟩

theorem shows_after {f : Frontend} (blank : f.canvas = .blank) (events : List Event) :
    (f.openWindow.state.after events).Shows (picturesAfter f.openWindow events) := by
  induction events using List.reverseRecOn with
  | nil =>
      exact shows_openWindow blank
  | append_singleton events event ih =>
      rw [after_concat, picturesAfter_concat]
      exact ih.handle event

/-- **The window shows the machine's screen.** The window is built at any scale. Then at any point
of a run the picture that it was last given is that of the canvas, and a redraw is called for or the
bytes of the picture show the screen at that scale. A tick that completes a cycle hands over one
picture if a redraw is called for after the cycle and none otherwise; after it no redraw is called
for, and the bytes of the last picture show the screen. -/
theorem window_shows_screen (arguments : CommandLine.Arguments) (files : FileReader)
    (random : RandomBytes) (scale : Nat) (events : List Event) :
    let opened := (unopened arguments files random scale).openWindow
    let f := opened.state.after events
    (picturesAfter opened events).getLast? = some f.picture ∧
    (f.engine.machine.redraw = true ∨ Renders scale f.engine.framebuffer f.picture.bytes) ∧
    (f.Completes →
      (Request.pictures f.tick.requests).length =
        f.feedKeys.engine.step.engine.machine.redraw.toNat ∧
      f.tick.state.engine.machine.redraw = false ∧
      (picturesAfter opened (events ++ [.tick])).getLast? = some f.tick.state.picture ∧
      Renders scale f.tick.state.engine.framebuffer f.tick.state.picture.bytes) := by
  intro opened f
  have scaled : f.setup.scale = scale := by
    rw [setup_after, setup_openWindow]
    rfl
  have shows : f.Shows (picturesAfter opened events) := shows_after rfl events
  refine ⟨shows.last, ?_, fun completes => ?_⟩
  · cases settled : f.engine.machine.redraw with
    | true =>
        exact Or.inl rfl
    | false =>
        exact Or.inr (scaled ▸ shows.renders settled)
  · have settled : f.tick.state.engine.machine.redraw = false := by
      rw [tick_of_completes completes]
      exact redraw_cycled f
    have shows' : f.tick.state.Shows (picturesAfter opened (events ++ [.tick])) := by
      rw [picturesAfter_concat]
      exact shows.handle .tick
    have scaled' : f.tick.state.setup.scale = scale :=
      (congrArg Setup.scale (f.handle_handled .tick).setup_eq).trans scaled
    refine ⟨?_, settled, shows'.last, scaled' ▸ shows'.renders settled⟩
    rw [pictures_tick_of_completes completes, stepped]
    split
    next pending =>
      rw [pending]
      rfl
    next settled =>
      rw [Bool.eq_false_iff.2 settled]
      rfl

/-- One program, shown at twice its size. -/
def enlarged : CommandLine.Arguments := { roms := ["ROM"], scale := some 2 }

/-- The program draws the glyph of zero in the corner and stalls. -/
def enlargedFiles : FileReader := fun _ => .ok [0xD0, 0x05]

/-- The frontend as it starts to play the program. -/
def drawing : Turn := (unopened enlarged enlargedFiles (.cycle #[]) 2).openWindow

/-- The last pixel of the glyph's upper edge is white in the upper left of the window. -/
theorem window_shows_screen_drawing :
    ∃ image, (picturesAfter drawing [.tick]).getLast? = some image ∧
      image.bytes[4 * (64 * 2 * 63 + 7) + 1]? = some 255 := by
  have completes : (drawing.state.after []).Completes :=
    ⟨by decide +kernel, true, by decide +kernel⟩
  have lit : (drawing.state.after []).tick.state.engine.framebuffer[64 * 0 + 3]? = some true := by
    decide +kernel
  have shown := (window_shows_screen enlarged enlargedFiles (.cycle #[]) 2 []).2.2
  rw [← drawing] at shown
  obtain ⟨-, -, last, renders⟩ := shown completes
  refine ⟨_, last, ?_⟩
  rw [renders.byte_eq 63 7 1 (by decide) (by decide) (by decide), if_pos (Or.inr lit)]

end Frontend
end ChipEight
