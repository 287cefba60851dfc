import ChipEight.Proofs.Decoding
import ChipEight.Proofs.Effect
import ChipEight.Proofs.Run
import ChipEight.Proofs.Transfer

/-!
# Drawing, pixel by pixel

The top left corner of a sprite is a place on the screen, its rows are bytes from the index on, and
what does not fit on the screen is left out. A drawing instruction switches over the pixels that the
sprite lights.

* `Screen.overlaps_iff`: two screens overlap where a pixel is lit in both.
* `Screen.pixel_layout_rows`: the pixels that a sprite lights, by its rows.
* `Machine.lights`: which pixels the sprite of a drawing instruction lights; `pixel_sprite` says that
  its layout has those.
* `Engine.draw_pixel_for_pixel`: what a step makes of the machine that draws.
-/

namespace ChipEight

theorem PixelRow.ne_zero_iff {line : PixelRow} :
    line ≠ 0 ↔ ∃ c, c < 64 ∧ line.getMsbD c = true := by
  constructor
  · intro lit
    refine Classical.byContradiction fun dark => lit (BitVec.eq_of_getMsbD_eq fun c hc => ?_)
    have unlit : ¬ line.getMsbD c = true := fun h => dark ⟨c, hc, h⟩
    simpa using unlit
  · rintro ⟨c, -, lit⟩ rfl
    simp at lit

namespace Screen

theorem row_and (s t : Screen) {r : Nat} (hr : r < 32) :
    (s.rows.zipWith (· &&& ·) t.rows)[r] = s.row r &&& t.row r := by
  simp [row_of_lt _ hr]

/-- Two screens overlap where a pixel is lit in both. -/
theorem overlaps_iff (s t : Screen) :
    s.overlaps t = true ↔
      ∃ r c, (r < 32 ∧ c < 64) ∧ s.pixel r c = true ∧ t.pixel r c = true := by
  rw [overlaps, Vector.any_eq_true]
  constructor
  · rintro ⟨r, hr, lit⟩
    rw [row_and s t hr, bne_iff_ne, PixelRow.ne_zero_iff] at lit
    obtain ⟨c, hc, both⟩ := lit
    rw [BitVec.getMsbD_and, Bool.and_eq_true] at both
    exact ⟨r, c, ⟨hr, hc⟩, both⟩
  · rintro ⟨r, c, ⟨hr, hc⟩, both⟩
    refine ⟨r, hr, ?_⟩
    rw [row_and s t hr, bne_iff_ne, PixelRow.ne_zero_iff]
    refine ⟨c, hc, ?_⟩
    rw [BitVec.getMsbD_and, Bool.and_eq_true]
    exact both

/-- A sprite lights the pixels of its set bits that are on the screen. -/
theorem pixel_layout_rows (top left : Nat) (rows : List Byte) {r c : Nat} (hr : r < 32)
    (hc : c < 64) :
    (layout top left rows).pixel r c =
      (decide (top ≤ r ∧ r < min (top + rows.length) 32 ∧ left ≤ c ∧ c < min (left + 8) 64) &&
        (rows.getD (r - top) 0).getLsbD (7 - (c - left))) := by
  rw [pixel_layout _ _ _ _ _ hr hc]
  by_cases inside : top ≤ r ∧ left ≤ c ∧ c < left + 8
  · have column : c - left < 8 := by omega
    by_cases tall : r - top < rows.length
    · have covered : top ≤ r ∧ r < min (top + rows.length) 32 ∧ left ≤ c ∧ c < min (left + 8) 64 := by
        omega
      simp [inside, covered, BitVec.getMsbD, column]
    · have below : ¬ r < min (top + rows.length) 32 := by omega
      simp [below, Nat.le_of_not_lt tall]
  · have outside :
        ¬ (top ≤ r ∧ r < min (top + rows.length) 32 ∧ left ≤ c ∧ c < min (left + 8) 64) := by
      omega
    rw [decide_eq_false inside, decide_eq_false outside]
    rfl

end Screen

theorem flagByte_eq_one_iff {up : Bool} : flagByte up = 1 ↔ up = true := by
  cases up <;> simp [flagByte]

theorem flagByte_eq_zero_iff {up : Bool} : flagByte up = 0 ↔ ¬ up = true := by
  cases up <;> simp [flagByte]

/-- A word `Dxyn` draws. -/
theorem Instruction.decode_draw {w : Word} (h : w &&& 0xF000 = 0xD000) :
    decode w = .draw w.x w.y w.n :=
  decode_of_fits ⟨0xF000, 0xD000, fun w => .draw w.x w.y w.n⟩ (by simp [table])
    ((Row.fits_iff _ w).2 h)

namespace Machine

/-- Does the sprite of `height` rows light the pixel in row `r` and column `c`? Its corner is where
two registers say, modulo the size of the screen; its row `k` is the byte `k` places after the index,
leftmost pixel first. -/
def lights (m : Machine) (x y height : Nibble) (r c : Nat) : Bool :=
  let top := (m.v y).toNat % 32
  let left := (m.v x).toNat % 64
  decide (top ≤ r ∧ r < min (top + height) 32 ∧ left ≤ c ∧ c < min (left + 8) 64) &&
    (m.memory.read ((m.index + (r - top)) % 4096)).getLsbD (7 - (c - left))

theorem within_of_lights {m : Machine} {x y height : Nibble} {r c : Nat}
    (lit : m.lights x y height r c = true) : r < 32 ∧ c < 64 := by
  rw [lights, Bool.and_eq_true, decide_eq_true_eq] at lit
  omega

/-- The sprite that is laid out lights those pixels. -/
theorem pixel_sprite (m : Machine) (x y height : Nibble) {r c : Nat} (hr : r < 32) (hc : c < 64) :
    (m.sprite x y height).pixel r c = m.lights x y height r c := by
  rw [sprite, Screen.pixel_layout_rows _ _ _ hr hc, Memory.length_slice, Memory.getD_slice, lights,
    Memory.read_mod]
  by_cases covered : (m.v y).toNat % 32 ≤ r ∧ r < min ((m.v y).toNat % 32 + height) 32 ∧
      (m.v x).toNat % 64 ≤ c ∧ c < min ((m.v x).toNat % 64 + 8) 64
  · have tall : r - (m.v y).toNat % 32 < height := by omega
    rw [if_pos tall]
  · rw [decide_eq_false covered, Bool.false_and, Bool.false_and]

/-- A sprite has a pixel of some kind on the screen where it lights one of that kind. -/
theorem exists_pixel_sprite_iff (m : Machine) (x y height : Nibble) (kind : Nat → Nat → Prop) :
    (∃ r c, (r < 32 ∧ c < 64) ∧ kind r c ∧ (m.sprite x y height).pixel r c = true) ↔
      ∃ r c, m.lights x y height r c = true ∧ kind r c := by
  constructor
  · rintro ⟨r, c, ⟨hr, hc⟩, fits, meets⟩
    rw [m.pixel_sprite x y height hr hc] at meets
    exact ⟨r, c, meets, fits⟩
  · rintro ⟨r, c, meets, fits⟩
    obtain ⟨hr, hc⟩ := within_of_lights meets
    refine ⟨r, c, ⟨hr, hc⟩, fits, ?_⟩
    rw [m.pixel_sprite x y height hr hc]
    exact meets

/-- A sprite meets a lit pixel where it lights one that is lit. -/
theorem overlaps_sprite_iff (m : Machine) (x y height : Nibble) :
    m.screen.overlaps (m.sprite x y height) = true ↔
      ∃ r c, m.lights x y height r c = true ∧ m.screen.pixel r c = true := by
  rw [Screen.overlaps_iff, exists_pixel_sprite_iff]

theorem v_drawSprite (m : Machine) (x y height z : Nibble) :
    (m.drawSprite x y height).v z =
      if Registers.flag = z then flagByte (m.screen.overlaps (m.sprite x y height)) else m.v z :=
  m.v_setV Registers.flag z _

/-- A step at a drawing instruction draws, goes on and lets the timers run down. -/
theorem step_draw (o : Options) {m : Machine} {x y height : Nibble}
    (draws : m.instruction = .draw x y height) :
    m.step o = ((m.count.drawSprite x y height).next.age, .ok true) :=
  step_of_execute draws rfl

end Machine

namespace Engine

/-- **Drawing, pixel by pixel.** A step at a word `Dxyn` switches over the pixels that its sprite
lights and keeps all others. The flag tells whether one of them was lit before; no other register,
nor the index, the memory or the stack is changed, and the program goes on. -/
theorem draw_pixel_for_pixel (e : Engine) (draws : e.machine.word &&& 0xF000 = 0xD000) :
    let m := e.machine
    let m' := e.step.engine.machine
    let lights := m.lights m.word.x m.word.y m.word.n
    e.step.result = .ok true ∧
    (∀ r c, r < 32 → c < 64 → m'.screen.pixel r c = (m.screen.pixel r c ^^ lights r c)) ∧
    (m'.v Registers.flag = 1 ↔ ∃ r c, lights r c = true ∧ m.screen.pixel r c = true) ∧
    (m'.v Registers.flag = 0 ↔ ¬ ∃ r c, lights r c = true ∧ m.screen.pixel r c = true) ∧
    (∀ z, z ≠ Registers.flag → m'.v z = m.v z) ∧
    m'.index = m.index ∧ m'.memory = m.memory ∧ m'.slots = m.slots ∧ m'.sp = m.sp ∧
    m'.pc = (m.pc + 2) % 65536 := by
  intro m m' lights
  have step : m.step e.options =
      ((m.count.drawSprite m.word.x m.word.y m.word.n).next.age, .ok true) :=
    Machine.step_draw e.options (Instruction.decode_draw draws)
  have after : m' = (m.count.drawSprite m.word.x m.word.y m.word.n).next.age :=
    congrArg Prod.fst step
  have screen : m'.screen = m.screen.xor (m.sprite m.word.x m.word.y m.word.n) := by
    rw [after]
    rfl
  have flag : m'.v Registers.flag =
      flagByte (m.screen.overlaps (m.sprite m.word.x m.word.y m.word.n)) := by
    rw [after, Machine.v_age]
    exact (m.count.v_drawSprite _ _ _ _).trans (if_pos rfl)
  have met := m.overlaps_sprite_iff m.word.x m.word.y m.word.n
  refine ⟨congrArg Prod.snd step, fun r c hr hc => ?_, ?_, ?_, fun z other => ?_, ?_⟩
  · rw [screen, Screen.pixel_xor, m.pixel_sprite _ _ _ hr hc]
  · rw [flag, flagByte_eq_one_iff, met]
  · rw [flag, flagByte_eq_zero_iff, met]
  · rw [after, Machine.v_age]
    exact (m.count.v_drawSprite _ _ _ _).trans (if_neg other.symm)
  · rw [after]
    exact ⟨rfl, rfl, rfl, rfl, rfl⟩

/-- The word `DFFF` draws in the last corner of the screen, where `VF` says. The index is beyond the
last address, and the only lit pixel of the screen is in that corner. -/
def cornered : Engine where
  machine :=
    { memory := .writeAll (Memory.blank.write 0xFFF 0xC0) 0x200 [0xDF, 0xFF]
      registers := Registers.zero.set Registers.flag 0xFF
      index := 0xFFFF
      screen := .layout 31 63 [0x80]
      random := .cycle #[] }
  log := ⟨.error, false⟩

/-- One pixel of fifteen rows is on the screen. It is switched off, and that overwrites the register
that told where to draw. -/
theorem draw_pixel_for_pixel_cornered :
    let m' := cornered.step.engine.machine
    cornered.machine.word &&& 0xF000 = 0xD000 ∧
    m'.screen.pixel 31 63 = false ∧ m'.screen.pixel 31 0 = false ∧ m'.v Registers.flag = 1 := by
  intro m'
  have draws : cornered.machine.word &&& 0xF000 = 0xD000 := by decide +kernel
  obtain ⟨-, drawn, met, -⟩ := cornered.draw_pixel_for_pixel draws
  refine ⟨draws, ?_, ?_, met.2 ⟨31, 63, by decide +kernel⟩⟩
  · rw [drawn 31 63 (by decide) (by decide)]
    decide +kernel
  · rw [drawn 31 0 (by decide) (by decide)]
    decide +kernel

end Engine
end ChipEight
