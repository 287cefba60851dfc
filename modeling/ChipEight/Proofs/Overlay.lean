import ChipEight.Proofs.Footprint
import ChipEight.Proofs.Sprite
import ChipEight.Proofs.WellFormed

/-!
# Sprites over one another

A draw switches pixels over. So the same draw a second time undoes the first, and of many draws each
pixel only keeps the parity of those that cover it, whatever their order.

* `Engine.step_draws`: what a drawing step makes of the machine.
* `Engine.drawing_twice`: the screen and the flag after the same draw twice.
* `SpriteDraw`: a draw with all that it depends on; `Screen.overlay` puts a list of them on a screen,
  and `Screen.pixel_overlay` counts the ones that cover a pixel.
* `drawn_iff`: engines that carry out the draws one after the other leave that overlay behind, and
  `Engine.drawn_after` says that a run which clears nothing is such a series of draws.
* `draw_order`: the screen after a list of draws in any order.
-/

namespace ChipEight

namespace Screen

/-- What was just drawn meets itself where the screen was dark before. -/
theorem overlaps_xor_iff (s t : Screen) :
    (s.xor t).overlaps t = true ↔
      ∃ r c, (r < 32 ∧ c < 64) ∧ s.pixel r c = false ∧ t.pixel r c = true := by
  simp only [overlaps_iff, pixel_xor]
  refine exists_congr fun r => exists_congr fun c => and_congr_right fun _ => ?_
  cases s.pixel r c <;> cases t.pixel r c <;> decide

end Screen

theorem flagByte_cases (up : Bool) : flagByte up = 0 ∨ flagByte up = 1 := by
  cases up with
  | false =>
      exact Or.inl rfl
  | true =>
      exact Or.inr rfl

/-! ### The same draw twice -/

namespace Machine

theorem sprite_congr {m m' : Machine} {x y height : Nibble} (hx : m'.v x = m.v x)
    (hy : m'.v y = m.v y)
    (rows : ∀ k, k < height.val → m'.memory.read (m'.index + k) = m.memory.read (m.index + k)) :
    m'.sprite x y height = m.sprite x y height := by
  have slice : m'.memory.slice m'.index height = m.memory.slice m.index height :=
    List.map_congr_left fun k hk => rows k (List.mem_range.1 hk)
  rw [sprite, sprite, hx, hy, slice]

/-- Where a sprite meets a dark pixel, it meets itself when it is drawn again. -/
theorem overlaps_xor_sprite_iff (m : Machine) (x y height : Nibble) :
    (m.screen.xor (m.sprite x y height)).overlaps (m.sprite x y height) = true ↔
      ∃ r c, m.lights x y height r c = true ∧ m.screen.pixel r c = false := by
  rw [Screen.overlaps_xor_iff, exists_pixel_sprite_iff]

end Machine

namespace Engine

/-- The machine after a drawing step. -/
theorem step_draws {e : Engine} (draws : e.machine.word &&& 0xF000 = 0xD000) :
    let m := e.machine
    let sprite := m.sprite m.word.x m.word.y m.word.n
    let m' := e.step.engine.machine
    e.step.result = .ok true ∧ m'.screen = m.screen.xor sprite ∧
    m'.v Registers.flag = flagByte (m.screen.overlaps sprite) ∧
    (∀ z, z ≠ Registers.flag → m'.v z = m.v z) ∧
    m'.index = m.index ∧ m'.memory = m.memory := by
  intro m sprite m'
  have step := Machine.step_draw e.options (Instruction.decode_draw draws)
  have after : m' = (m.count.drawSprite m.word.x m.word.y m.word.n).next.age :=
    congrArg Prod.fst step
  refine ⟨congrArg Prod.snd step, ?_, ?_, fun z other => ?_, ?_⟩
  · rw [after]
    rfl
  · rw [after, Machine.v_age]
    exact (m.count.v_drawSprite _ _ _ _).trans (if_pos rfl)
  · rw [after, Machine.v_age]
    exact (m.count.v_drawSprite _ _ _ _).trans (if_neg other.symm)
  · rw [after]
    exact ⟨rfl, rfl⟩

/-- A later engine is at the word that the earlier one drew by, and finds the screen, the index, the
corner and the rows of the sprite as the earlier one has left them. -/
structure DrawsAgain (e later : Engine) : Prop where
  word_eq : later.machine.word = e.machine.word
  screen_eq : later.machine.screen = e.step.engine.machine.screen
  index_eq : later.machine.index = e.step.engine.machine.index
  left_eq : later.machine.v e.machine.word.x = e.step.engine.machine.v e.machine.word.x
  top_eq : later.machine.v e.machine.word.y = e.step.engine.machine.v e.machine.word.y
  row_eq : ∀ k, k < e.machine.word.n.val →
    later.machine.memory.read (later.machine.index + k) =
      e.step.engine.machine.memory.read (e.step.engine.machine.index + k)

/-- **The same draw twice.** A word `Dxyn` that leaves alone where it draws is carried out twice, with
the same index and the same sprite in memory. The second time restores the screen. The flag tells
after the first whether the sprite has met a lit pixel, after the second whether it had met a dark
one, so it stays down both times exactly if no pixel of the sprite is on the screen. -/
theorem drawing_twice (e later : Engine) (draws : e.machine.word &&& 0xF000 = 0xD000)
    (hx : e.machine.word.x ≠ Registers.flag) (hy : e.machine.word.y ≠ Registers.flag)
    (again : e.DrawsAgain later) :
    let m := e.machine
    let lights := m.lights m.word.x m.word.y m.word.n
    let first := e.step.engine.machine
    let second := later.step.engine.machine
    (e.step.result = .ok true ∧ later.step.result = .ok true) ∧
    second.screen = m.screen ∧
    ((first.v Registers.flag = 0 ∨ first.v Registers.flag = 1) ∧
      (second.v Registers.flag = 0 ∨ second.v Registers.flag = 1)) ∧
    (first.v Registers.flag = 1 ↔ ∃ r c, lights r c = true ∧ m.screen.pixel r c = true) ∧
    (second.v Registers.flag = 1 ↔ ∃ r c, lights r c = true ∧ m.screen.pixel r c = false) ∧
    (first.v Registers.flag = 0 ∧ second.v Registers.flag = 0 ↔
      ∀ r c, lights r c = false) := by
  intro m lights first second
  obtain ⟨result, screen, flag, registers, index, memory⟩ := step_draws draws
  obtain ⟨result', screen', flag', -⟩ := step_draws (e := later) (by rw [again.word_eq, draws])
  have same : later.machine.sprite m.word.x m.word.y m.word.n =
      m.sprite m.word.x m.word.y m.word.n := by
    refine Machine.sprite_congr (again.left_eq.trans (registers _ hx))
      (again.top_eq.trans (registers _ hy)) fun k hk => ?_
    rw [again.row_eq k hk, index, memory]
  rw [again.word_eq, same, again.screen_eq, screen] at screen' flag'
  have met := m.overlaps_sprite_iff m.word.x m.word.y m.word.n
  have met' := m.overlaps_xor_sprite_iff m.word.x m.word.y m.word.n
  refine ⟨⟨result, result'⟩, screen'.trans (Screen.xor_xor_cancel _ _), ⟨?_, ?_⟩, ?_, ?_, ?_⟩
  · rw [flag]
    exact flagByte_cases _
  · rw [flag']
    exact flagByte_cases _
  · rw [flag, flagByte_eq_one_iff, met]
  · rw [flag', flagByte_eq_one_iff, met']
  · rw [flag, flag', flagByte_eq_zero_iff, flagByte_eq_zero_iff, met, met']
    constructor
    · rintro ⟨unlit, undark⟩ r c
      by_contra lit
      rw [Bool.not_eq_false] at lit
      cases pixel : m.screen.pixel r c with
      | false =>
          exact undark ⟨r, c, lit, pixel⟩
      | true =>
          exact unlit ⟨r, c, lit, pixel⟩
    · intro hidden
      have unlit (r c : Nat) : lights r c ≠ true := by simp [hidden]
      exact ⟨fun ⟨r, c, lit, _⟩ => unlit r c lit, fun ⟨r, c, lit, _⟩ => unlit r c lit⟩

/-- An engine at two words `D011`, which draw over the right edge of the screen; the last pixel of
the row is lit. -/
def retraced : Engine where
  machine :=
    { memory := .writeAll .blank 0x200 [0xD0, 0x11, 0xD0, 0x11]
      registers := Registers.zero.set 0 62
      screen := .layout 0 63 [0x80]
      random := .cycle #[] }
  log := ⟨.error, false⟩

/-- Two pixels of the sprite are on the screen, of which one was lit. -/
theorem drawing_twice_retraced :
    let first := retraced.step.engine
    retraced.DrawsAgain first ∧
    first.step.engine.machine.screen = retraced.machine.screen ∧
    first.machine.v Registers.flag = 1 ∧ first.step.engine.machine.v Registers.flag = 1 := by
  intro first
  have word : retraced.machine.word = 0xD011 := by decide +kernel
  have again : retraced.DrawsAgain first :=
    ⟨by decide +kernel, rfl, rfl, rfl, rfl, fun _ _ => rfl⟩
  obtain ⟨-, restored, -, met, met', -⟩ := retraced.drawing_twice first (by rw [word]; decide)
    (by rw [word]; decide) (by rw [word]; decide) again
  rw [word] at met met'
  exact ⟨again, restored, met.2 ⟨0, 63, by decide +kernel⟩, met'.2 ⟨0, 62, by decide +kernel⟩⟩

end Engine

/-! ### Many draws -/

/-- A draw with all that it depends on: the values of the two registers that say where, the index,
and the rows of the sprite that are found there. -/
@[ext] structure SpriteDraw where
  left : Byte
  top : Byte
  index : Word
  rows : List Byte
  short : rows.length < 16 := by decide
  deriving DecidableEq

namespace SpriteDraw

/-- Does the draw, cut at the edges of the screen, cover the pixel with a set bit? -/
def covers (d : SpriteDraw) (r c : Nat) : Bool :=
  let top := d.top.toNat % 32
  let left := d.left.toNat % 64
  decide (top ≤ r ∧ r < min (top + d.rows.length) 32 ∧ left ≤ c ∧ c < min (left + 8) 64) &&
    (d.rows.getD (r - top) 0).getLsbD (7 - (c - left))

/-- The sprite on an otherwise dark screen. -/
def layout (d : SpriteDraw) : Screen := .layout (d.top.toNat % 32) (d.left.toNat % 64) d.rows

theorem pixel_layout (d : SpriteDraw) {r c : Nat} (hr : r < 32) (hc : c < 64) :
    d.layout.pixel r c = d.covers r c :=
  Screen.pixel_layout_rows _ _ d.rows hr hc

end SpriteDraw

namespace Screen

/-- A screen with sprites drawn over it one after the other. -/
def overlay (s : Screen) (draws : List SpriteDraw) : Screen :=
  draws.foldl (fun s d => s.xor d.layout) s

/-- A pixel is switched over by each draw that covers it. -/
theorem pixel_overlay (s : Screen) (draws : List SpriteDraw) {r c : Nat} (hr : r < 32)
    (hc : c < 64) :
    (s.overlay draws).pixel r c =
      (s.pixel r c ^^ decide (draws.countP (·.covers r c) % 2 = 1)) := by
  unfold overlay
  induction draws generalizing s with
  | nil =>
      simp
  | cons d rest ih =>
      rw [List.foldl_cons, ih, pixel_xor, d.pixel_layout hr hc, List.countP_cons]
      rcases Nat.mod_two_eq_zero_or_one (rest.countP (·.covers r c)) with even | odd
      · cases d.covers r c <;> simp [even, Nat.add_mod]
      · cases d.covers r c <;> simp [odd, Nat.add_mod]

/-- The order of the draws does not matter. -/
theorem overlay_perm (s : Screen) {draws order : List SpriteDraw} (perm : order.Perm draws) :
    s.overlay order = s.overlay draws := by
  refine ext_pixel fun r c hr hc => ?_
  rw [pixel_overlay s order hr hc, pixel_overlay s draws hr hc, perm.countP_eq]

end Screen

/-- The draw of a machine that stands at a word `Dxyn`. -/
def Machine.drawing (m : Machine) : SpriteDraw where
  left := m.v m.word.x
  top := m.v m.word.y
  index := .ofNat 16 m.index
  rows := m.memory.slice m.index m.word.n
  short := by simp [Memory.length_slice]

theorem Machine.layout_drawing (m : Machine) :
    m.drawing.layout = m.sprite m.word.x m.word.y m.word.n :=
  rfl

namespace Engine

/-- The draw that the next step carries out, if it carries one out. -/
def draw? (e : Engine) : Option SpriteDraw :=
  if e.machine.word &&& 0xF000 = 0xD000 then some e.machine.drawing else none

/-- The draws that the steps of a run carry out, in their order. -/
def drawsIn (e : Engine) (run : List Action) : List SpriteDraw := (e.starts run).filterMap draw?

theorem screen_step_of_draw {e : Engine} {d : SpriteDraw} (draws : e.draw? = some d) :
    e.step.engine.machine.screen = e.machine.screen.xor d.layout := by
  unfold draw? at draws
  split at draws
  next word =>
    cases draws
    rw [Machine.layout_drawing]
    exact (step_draws word).2.1
  next =>
    cases draws

/-- A step that neither draws nor clears the screen leaves it as it is. -/
theorem screen_step_of_none {e : Engine} (drawless : e.draw? = none)
    (kept : e.machine.word ≠ 0x00E0) : e.step.engine.machine.screen = e.machine.screen := by
  have word : ¬ e.machine.word &&& 0xF000 = 0xD000 := by
    intro word
    rw [draw?, if_pos word] at drawless
    cases drawless
  refine e.step_shown.screen_eq ?_
  rw [paints_eq, ← Bool.not_eq_true]
  intro paints
  rcases Instruction.paints_decode paints with clears | draws
  · exact kept clears
  · exact word draws

theorem screen_perform {e : Engine} {action : Action} (noReset : action ≠ .reset)
    (noStep : action ≠ .step) :
    (e.perform action).engine.machine.screen = e.machine.screen := by
  by_cases asks : action = .takeRedraw
  · subst asks
    rfl
  · exact (perform_shown noReset noStep asks).screen_eq rfl

end Engine

/-- Well-formed engines carry out the draws one after the other, each on the screen that the one
before has left. What else became of the machine in between does not matter. -/
inductive Drawn : Screen → List SpriteDraw → Screen → Prop
  | nil (s : Screen) : Drawn s [] s
  | cons {e : Engine} {d : SpriteDraw} {rest : List SpriteDraw} {t : Screen}
      (wellFormed : e.machine.WellFormed) (draws : e.draw? = some d)
      (later : Drawn e.step.engine.machine.screen rest t) :
      Drawn e.machine.screen (d :: rest) t

theorem Drawn.eq_overlay {s t : Screen} {draws : List SpriteDraw} (h : Drawn s draws t) :
    t = s.overlay draws := by
  induction h with
  | nil s =>
      rfl
  | cons wellFormed draws later ih =>
      rw [ih, Engine.screen_step_of_draw draws]
      rfl

namespace SpriteDraw

/-- The word `D01n` of a draw. -/
def word (d : SpriteDraw) : Word := .ofNat 16 (0xD010 + d.rows.length)

theorem word_eq (d : SpriteDraw) :
    d.word &&& 0xF000 = 0xD000 ∧ d.word.x = 0 ∧ d.word.y = 1 ∧ d.word.n.val = d.rows.length := by
  have all : ∀ n : Fin 16, let w : Word := .ofNat 16 (0xD010 + n.val)
      w &&& 0xF000 = 0xD000 ∧ w.x = 0 ∧ w.y = 1 ∧ w.n = n := by
    decide
  obtain ⟨draws, x, y, n⟩ := all ⟨d.rows.length, d.short⟩
  exact ⟨draws, x, y, congrArg Fin.val n⟩

/-- A place for the word of a draw, far from its sprite. -/
def place (d : SpriteDraw) : Nat := (d.index.toNat + 2048) % 4096

/-- An engine about to carry out a draw on a screen. -/
def poised (d : SpriteDraw) (s : Screen) : Engine where
  machine :=
    { memory := (Memory.blank.writeAll d.index.toNat d.rows).writeAll d.place
        [d.word.toBytes.1, d.word.toBytes.2]
      registers := (Registers.zero.set 0 d.left).set 1 d.top
      index := d.index.toNat
      pc := d.place
      screen := s
      random := .cycle #[] }
  log := ⟨.error, false⟩

theorem wellFormed_poised (d : SpriteDraw) (s : Screen) : (d.poised s).machine.WellFormed where
  pc_le := by
    have low : d.place < 4096 := Nat.mod_lt _ (by decide)
    exact Nat.le_trans (Nat.le_of_lt low) (by decide)
  index_le := Nat.le_of_lt_succ d.index.isLt
  sp_le := Nat.zero_le _
  latch_le := (Machine.WellFormed.boot (.cycle #[])).latch_le

theorem word_poised (d : SpriteDraw) (s : Screen) : (d.poised s).machine.word = d.word := by
  have here : (d.poised s).machine.codeAddress = d.place := Nat.mod_mod _ _
  have placed : (d.poised s).machine.memory =
      (Memory.blank.writeAll d.index.toNat d.rows).writeAll (d.poised s).machine.codeAddress
        [d.word.toBytes.1, d.word.toBytes.2] := by
    rw [here]
    rfl
  exact Machine.word_of_writeAll placed (Nat.zero_le _)

/-- Neither byte of the word stands where the sprite is. -/
theorem slice_poised (d : SpriteDraw) (s : Screen) :
    (d.poised s).machine.memory.slice d.index.toNat d.rows.length = d.rows := by
  have short := d.short
  refine List.ext_getElem (Memory.length_slice _ _ _) fun k hk hk' => ?_
  simp only [Memory.slice, List.getElem_map, List.getElem_range]
  show (Memory.writeAll _ d.place _).read _ = _
  rw [Memory.read_writeAll_of_forall_ne, Memory.read_writeAll _ (by omega) _ _ hk']
  intro j hj
  rw [place]
  simp only [List.length_cons, List.length_nil] at hj
  omega

theorem drawing_poised (d : SpriteDraw) (s : Screen) : (d.poised s).machine.drawing = d := by
  obtain ⟨-, x, y, n⟩ := d.word_eq
  refine SpriteDraw.ext ?_ ?_ ?_ ?_
  · show (d.poised s).machine.registers.get (d.poised s).machine.word.x = d.left
    rw [word_poised, x]
    show ((Registers.zero.set 0 d.left).set 1 d.top).get 0 = d.left
    rw [Registers.get_set, Registers.get_set]
    rfl
  · show (d.poised s).machine.registers.get (d.poised s).machine.word.y = d.top
    rw [word_poised, y]
    show ((Registers.zero.set 0 d.left).set 1 d.top).get 1 = d.top
    rw [Registers.get_set]
    rfl
  · show BitVec.ofNat 16 d.index.toNat = d.index
    rw [BitVec.ofNat_toNat, BitVec.setWidth_eq]
  · show (d.poised s).machine.memory.slice _ (d.poised s).machine.word.n.val = d.rows
    rw [word_poised, n]
    exact d.slice_poised s

theorem draw?_poised (d : SpriteDraw) (s : Screen) : (d.poised s).draw? = some d := by
  rw [Engine.draw?, word_poised, if_pos d.word_eq.1, drawing_poised]

end SpriteDraw

theorem drawn_overlay (s : Screen) (draws : List SpriteDraw) : Drawn s draws (s.overlay draws) := by
  induction draws generalizing s with
  | nil =>
      exact .nil s
  | cons d rest ih =>
      have later := ih (s.xor d.layout)
      have stepped := Engine.screen_step_of_draw (d.draw?_poised s)
      exact .cons (d.wellFormed_poised s) (d.draw?_poised s) (stepped ▸ later)

/-- However a list of draws is carried out, it leaves the overlay behind, and it can be carried
out. -/
theorem drawn_iff {s t : Screen} {draws : List SpriteDraw} :
    Drawn s draws t ↔ t = s.overlay draws := by
  constructor
  · exact Drawn.eq_overlay
  · rintro rfl
    exact drawn_overlay s draws

namespace Engine

/-- A run that clears nothing carries out the draws of its steps. -/
theorem drawn_after {e : Engine} (wellFormed : e.machine.WellFormed) {run : List Action}
    (noReset : ∀ action ∈ run, action ≠ .reset)
    (kept : ∀ s ∈ e.starts run, s.machine.word ≠ 0x00E0) :
    Drawn e.machine.screen (e.drawsIn run) (e.after run).machine.screen := by
  induction run generalizing e with
  | nil =>
      exact .nil e.machine.screen
  | cons action rest ih =>
      obtain ⟨first, others⟩ := List.forall_mem_cons.1 noReset
      have later := wellFormed.acted (e.perform_acted action)
      by_cases hstep : action = .step
      · subst hstep
        rw [starts_step, List.forall_mem_cons] at kept
        have rest' := ih later others kept.2
        rw [drawsIn, starts_step, List.filterMap_cons]
        cases hdraw : e.draw? with
        | none =>
            rw [← screen_step_of_none hdraw kept.1]
            exact rest'
        | some d =>
            exact .cons wellFormed hdraw rest'
      · rw [starts_cons_of_ne hstep] at kept
        have rest' := ih later others kept
        rw [drawsIn, starts_cons_of_ne hstep, ← screen_perform first hstep]
        exact rest'

end Engine

/-- **The order of draws does not matter.** For each list of draws there is a screen on which each
pixel is as before, switched over if an odd number of them covers it. Carried out in any order, by
well-formed engines one after the other or by the steps of one run that clears nothing, the draws
leave that screen and no other behind. -/
theorem draw_order (s : Screen) (draws : List SpriteDraw) :
    ∃ t : Screen,
      (∀ r c, r < 32 → c < 64 →
        t.pixel r c = (s.pixel r c ^^ decide (draws.countP (·.covers r c) % 2 = 1))) ∧
      ∀ order : List SpriteDraw, order.Perm draws →
        (∀ t', Drawn s order t' ↔ t' = t) ∧
        ∀ (e : Engine) (run : List Action), e.machine.WellFormed → e.machine.screen = s →
          (∀ action ∈ run, action ≠ .reset) →
          (∀ b ∈ e.starts run, b.machine.word ≠ 0x00E0) → e.drawsIn run = order →
          (e.after run).machine.screen = t := by
  refine ⟨s.overlay draws, fun r c hr hc => s.pixel_overlay draws hr hc, fun order perm => ?_⟩
  have same := s.overlay_perm perm
  refine ⟨fun t' => ?_, ?_⟩
  · rw [drawn_iff, same]
  · rintro e run wellFormed rfl noReset kept rfl
    rw [← same, ← drawn_iff]
    exact Engine.drawn_after wellFormed noReset kept

/-- A row of four pixels from column `c` on, in the top row of the screen. -/
def bar (c : Byte) : SpriteDraw := { left := c, top := 0, index := 0, rows := [0xF0] }

/-- An engine at two words that draw such a row over the right edge of the screen, the second one
column further than the first. -/
def twoBars : Engine where
  machine :=
    { memory := .writeAll .blank 0x200 [0xD0, 0x11, 0xD2, 0x11]
      registers := (Registers.zero.set 0 62).set 2 63
      screen := .layout 0 63 [0x80]
      random := .cycle #[] }
  log := ⟨.error, false⟩

/-- The last pixel of the row is covered twice and the one before it once, in either order. -/
theorem draw_order_twoBars :
    ∃ t, Drawn twoBars.machine.screen [bar 63, bar 62] t ∧
      (twoBars.after [.step, .step]).machine.screen = t ∧
      t.pixel 0 62 = true ∧ t.pixel 0 63 = true := by
  have wellFormed : twoBars.machine.WellFormed :=
    ⟨by decide, by decide, by decide, (Machine.WellFormed.boot (.cycle #[])).latch_le⟩
  obtain ⟨t, pixels, orders⟩ := draw_order twoBars.machine.screen [bar 63, bar 62]
  obtain ⟨listed, -⟩ := orders _ (.refl _)
  obtain ⟨-, runs⟩ := orders [bar 62, bar 63] (.swap _ _ _)
  refine ⟨t, (listed t).2 rfl, ?_, ?_, ?_⟩
  · exact runs twoBars [.step, .step] wellFormed rfl (by simp) (by decide +kernel)
      (by decide +kernel)
  · rw [pixels 0 62 (by decide) (by decide)]
    decide +kernel
  · rw [pixels 0 63 (by decide) (by decide)]
    decide +kernel

end ChipEight
