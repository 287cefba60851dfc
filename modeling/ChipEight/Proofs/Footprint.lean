import ChipEight.Proofs.Decoding
import ChipEight.Proofs.Latch
import ChipEight.Proofs.Redraw
import ChipEight.Proofs.Transfer

/-!
# What a step leaves alone

Each word tells what its step can change: some bytes from the index on, the screen, the stack, the
index, some registers, a timer, the latch of a key, the next random byte. All else stays, apart from
the timers and the latches running down.

* `Instruction.stored`, `Instruction.setsIndex`, `Instruction.Writes`, `Instruction.draws`: what an
  instruction can change, told from its operands.
* `Machine.Confined`: nothing but that was changed; `Machine.execute_confined` says so of every
  instruction that does not fail.
* `Word.Writes` and the lemmas beside it: which words decode to such instructions, and with
  `Machine.Confined.memory_changed` and the others what a word is that has changed something.
* `Engine.step_confined`: what a step that succeeds has changed, by the word that it fetched.
-/

namespace ChipEight

namespace Instruction

/-- How many bytes the instruction stores, from the index on. -/
def stored : Instruction → Nat
  | .storeDigits _ => 3
  | .storeRegisters x => x.val + 1
  | _ => 0

/-- Does the instruction set the index? -/
def setsIndex : Instruction → Bool
  | .loadIndex _ => true
  | .addIndex _ => true
  | .pointGlyph _ => true
  | _ => false

/-- The register that the instruction puts a result into. -/
def result? : Instruction → Option Nibble
  | .loadByte x _ => some x
  | .addByte x _ => some x
  | .copy x _ => some x
  | .or x _ => some x
  | .and x _ => some x
  | .xor x _ => some x
  | .add x _ => some x
  | .sub x _ => some x
  | .shiftRight x => some x
  | .subFrom x _ => some x
  | .shiftLeft x => some x
  | .random x _ => some x
  | .readDelay x => some x
  | .waitKey x => some x
  | _ => none

/-- Does the instruction set the flag? -/
def setsFlag : Instruction → Bool
  | .add _ _ => true
  | .sub _ _ => true
  | .shiftRight _ => true
  | .subFrom _ _ => true
  | .shiftLeft _ => true
  | .draw _ _ _ => true
  | .addIndex _ => true
  | _ => false

/-- Can the instruction write to the register? -/
def Writes (i : Instruction) (j : Nibble) : Prop :=
  i.result? = some j ∨ (i.setsFlag = true ∧ j = Registers.flag) ∨
    ∃ x, i = .loadRegisters x ∧ j ≤ x

/-- Does the instruction draw a random byte? -/
def draws : Instruction → Bool
  | .random _ _ => true
  | _ => false

end Instruction

namespace Machine

/-- Nothing was changed but what the instruction can change. The screen, the stack and the keypad
are left out. -/
structure Confined (i : Instruction) (m m' : Machine) : Prop where
  memory_eq : ∀ a, (∀ k, k < i.stored → (m.index + k) % 4096 ≠ a % 4096) →
    m'.memory.read a = m.memory.read a
  index_eq : i.setsIndex = false → m'.index = m.index
  register_eq : ∀ j, ¬ i.Writes j → m'.v j = m.v j
  delay_eq : (∀ x, i ≠ .setDelay x) → m'.delay = m.delay
  sound_eq : (∀ x, i ≠ .setSound x) → m'.sound = m.sound
  random_eq : m'.random = if i.draws then m.random.advance else m.random

namespace Confined

variable {i : Instruction} {m m' : Machine} {x : Nibble}

theorem next (h : Confined i m m') : Confined i m m'.next :=
  ⟨h.memory_eq, h.index_eq, h.register_eq, h.delay_eq, h.sound_eq, h.random_eq⟩

theorem skipIf (h : Confined i m m') (condition : Bool) : Confined i m (m'.skipIf condition) :=
  ⟨h.memory_eq, h.index_eq, h.register_eq, h.delay_eq, h.sound_eq, h.random_eq⟩

theorem paint (h : Confined i m m') (screen : Screen) : Confined i m (m'.paint screen) :=
  ⟨h.memory_eq, h.index_eq, h.register_eq, h.delay_eq, h.sound_eq, h.random_eq⟩

theorem setKeypad (h : Confined i m m') (keypad : Keypad) : Confined i m { m' with keypad } :=
  ⟨h.memory_eq, h.index_eq, h.register_eq, h.delay_eq, h.sound_eq, h.random_eq⟩

theorem of_eq (hrandom : m'.random = if i.draws then m.random.advance else m.random)
    (hmemory : m'.memory = m.memory) (hregisters : m'.registers = m.registers)
    (hindex : m'.index = m.index) (hdelay : m'.delay = m.delay) (hsound : m'.sound = m.sound) :
    Confined i m m' where
  memory_eq a _ := by rw [hmemory]
  index_eq _ := hindex
  register_eq j _ := by rw [v, v, hregisters]
  delay_eq _ := hdelay
  sound_eq _ := hsound
  random_eq := hrandom

theorem refl (drawless : i.draws = false) (m : Machine) : Confined i m m :=
  .of_eq (by simp [drawless]) rfl rfl rfl rfl rfl

theorem setV (h : Confined i m m') {x : Nibble} (result : i.result? = some x) (b : Byte) :
    Confined i m (m'.setV x b) where
  memory_eq := h.memory_eq
  index_eq := h.index_eq
  register_eq j unwritten := by
    have other : x ≠ j := by
      rintro rfl
      exact unwritten (Or.inl result)
    rw [v_setV, if_neg other, h.register_eq j unwritten]
  delay_eq := h.delay_eq
  sound_eq := h.sound_eq
  random_eq := h.random_eq

theorem setFlag (h : Confined i m m') (flags : i.setsFlag = true) (up : Bool) :
    Confined i m (m'.setFlag up) where
  memory_eq := h.memory_eq
  index_eq := h.index_eq
  register_eq j unwritten := by
    have other : Registers.flag ≠ j := by
      rintro rfl
      exact unwritten (Or.inr (Or.inl ⟨flags, rfl⟩))
    rw [Machine.setFlag, v_setV, if_neg other, h.register_eq j unwritten]
  delay_eq := h.delay_eq
  sound_eq := h.sound_eq
  random_eq := h.random_eq

theorem setFlagged (h : Confined i m m') {x : Nibble} (result : i.result? = some x)
    (flags : i.setsFlag = true) (b : Byte) (up : Bool) : Confined i m (m'.setFlagged x b up) :=
  (h.setV result b).setFlag flags up

theorem setIndex (h : Confined i m m') (sets : i.setsIndex = true) (index : Nat) :
    Confined i m { m' with index } where
  memory_eq := h.memory_eq
  index_eq kept := by
    rw [sets] at kept
    cases kept
  register_eq := h.register_eq
  delay_eq := h.delay_eq
  sound_eq := h.sound_eq
  random_eq := h.random_eq

theorem storeAtIndex (drawless : i.draws = false) (m : Machine) {bytes : List Byte}
    (length : bytes.length = i.stored) : Confined i m (m.storeAtIndex bytes) where
  memory_eq a outside := by
    rw [← length] at outside
    exact Memory.read_writeAll_of_forall_ne bytes m.memory m.index a outside
  index_eq _ := rfl
  register_eq _ _ := rfl
  delay_eq _ := rfl
  sound_eq _ := rfl
  random_eq := (refl drawless m).random_eq

theorem skipOnKey (drawless : i.draws = false) (m : Machine) (key : Nibble) (wanted : Bool) :
    Confined i m (m.skipOnKey key wanted) := by
  unfold Machine.skipOnKey
  cases m.keypad.armed key with
  | false =>
      exact (refl drawless m).skipIf _
  | true =>
      exact ((refl drawless m).setKeypad (m.keypad.consume key)).skipIf _

theorem awaitKey (m : Machine) (x : Nibble) : Confined (.waitKey x) m (m.awaitKey x) := by
  unfold Machine.awaitKey
  cases m.keypad.lowest? with
  | none =>
      exact refl rfl m
  | some key =>
      exact (((refl rfl m).setKeypad (m.keypad.consume key)).setV rfl _).next

theorem loadRegisters (m : Machine) (x : Nibble) (value : Nibble → Byte) :
    Confined (.loadRegisters x) m
      { m with registers := .ofFn fun j => if j ≤ x then value j else m.v j } where
  memory_eq _ _ := rfl
  index_eq _ := rfl
  register_eq j unwritten := by
    have above : ¬ j ≤ x := fun h => unwritten (Or.inr (Or.inr ⟨x, rfl, h⟩))
    rw [v, Registers.get_ofFn, if_neg above]
  delay_eq _ := rfl
  sound_eq _ := rfl
  random_eq := rfl

end Confined

/-- Only an instruction that enters or leaves a subroutine changes the stack. -/
theorem execute_stack {o : Options} {m done : Machine} {i : Instruction}
    (hrun : m.execute o i = .ok () done) (flat : i.nests = false) :
    done.slots = m.slots ∧ done.sp = m.sp := by
  cases Executed.of_execute hrun with
  | call target room storable =>
      cases flat
  | ret top =>
      cases flat
  | plain flat kept =>
      exact ⟨kept.slots_eq, kept.sp_eq⟩

/-- An instruction that does not fail changes nothing but what it can change. -/
theorem execute_confined {o : Options} {m done : Machine} {i : Instruction}
    (hrun : m.execute o i = .ok () done) : Confined i m done := by
  cases i with
  | call target | ret =>
      obtain ⟨slots, sp, pc, rfl⟩ := execute_nests rfl hrun
      exact .of_eq rfl rfl rfl rfl rfl rfl
  | unknown w =>
      cases execute_unknown hrun
      exact .refl rfl m
  | skipIfKey x | skipUnlessKey x =>
      cases hrun
      exact .skipOnKey rfl m _ _
  | waitKey x =>
      cases hrun
      exact .awaitKey m x
  | loadByte x b | addByte x b =>
      cases hrun
      exact ((Confined.refl rfl m).setV rfl _).next
  | copy x y | or x y | and x y | xor x y =>
      cases hrun
      exact ((Confined.refl rfl m).setV rfl _).next
  | readDelay x =>
      cases hrun
      exact ((Confined.refl rfl m).setV rfl _).next
  | random x mask =>
      cases hrun
      have drawn : Confined (.random x mask) m { m with random := m.random.advance } :=
        .of_eq rfl rfl rfl rfl rfl rfl
      exact (drawn.setV rfl _).next
  | add x y | sub x y | subFrom x y =>
      cases hrun
      exact ((Confined.refl rfl m).setFlagged rfl rfl _ _).next
  | shiftRight x =>
      cases hrun
      exact ((Confined.refl rfl m).setFlagged rfl rfl _ _).next
  | shiftLeft x =>
      cases hrun
      split <;> exact ((Confined.refl rfl m).setFlagged rfl rfl _ _).next
  | draw x y n =>
      cases hrun
      exact (((Confined.refl rfl m).setFlag rfl _).paint _).next
  | addIndex x =>
      cases hrun
      exact (((Confined.refl rfl m).setIndex rfl _).setFlag rfl _).next
  | loadIndex target =>
      cases hrun
      exact ((Confined.refl rfl m).setIndex rfl _).next
  | pointGlyph x =>
      cases hrun
      exact ((Confined.refl rfl m).setIndex rfl _).next
  | setDelay x =>
      cases hrun
      exact ⟨fun _ _ => rfl, fun _ => rfl, fun _ _ => rfl, fun other => absurd rfl (other x),
        fun _ => rfl, rfl⟩
  | setSound x =>
      cases hrun
      exact ⟨fun _ _ => rfl, fun _ => rfl, fun _ _ => rfl, fun _ => rfl,
        fun other => absurd rfl (other x), rfl⟩
  | storeDigits x =>
      cases hrun
      exact (Confined.storeAtIndex rfl m rfl).next
  | storeRegisters x =>
      cases hrun
      exact (Confined.storeAtIndex rfl m (m.registers.length_upTo x)).next
  | loadRegisters x =>
      cases hrun
      exact (Confined.loadRegisters m x _).next
  | _ =>
      cases hrun
      exact .of_eq rfl rfl rfl rfl rfl rfl

end Machine

/-! ### The words of those instructions -/

namespace Word

/-- The words that give `Vx` a result: `6`, `7`, `8xy0` to `8xy7`, `8xyE`, `C`, `Fx07`, `Fx0A`. -/
def HasResult (w : Word) : Prop :=
  w &&& 0xF000 ∈ ([0x6000, 0x7000, 0xC000] : List Word) ∨
  w &&& 0xF00F ∈ ([0x8000, 0x8001, 0x8002, 0x8003, 0x8004, 0x8005, 0x8006, 0x8007, 0x800E] :
    List Word) ∨
  w &&& 0xF0FF ∈ ([0xF007, 0xF00A] : List Word)

/-- The words that set the flag: `8xy4` to `8xy7`, `8xyE`, `D` and `Fx1E`. -/
def SetsFlag (w : Word) : Prop :=
  w &&& 0xF00F ∈ ([0x8004, 0x8005, 0x8006, 0x8007, 0x800E] : List Word) ∨
  w &&& 0xF000 = 0xD000 ∨ w &&& 0xF0FF = 0xF01E

/-- The registers that a word may write to: one for a result, the flag, and for `Fx65` all up to
`Vx`. -/
def Writes (w : Word) (j : Nibble) : Prop :=
  (w.HasResult ∧ j = w.x) ∨ (w.SetsFlag ∧ j = Registers.flag) ∨
    (w &&& 0xF0FF = 0xF065 ∧ j ≤ w.x)

theorem and_ones (w : Word) : w &&& 0xFFFF#16 = w :=
  BitVec.and_allOnes

end Word

namespace Instruction

variable {w : Word} {j x : Nibble}

theorem stored_decode {k : Nat} : k < (decode w).stored →
    (w &&& 0xF0FF = 0xF033 ∧ k < 3) ∨ (w &&& 0xF0FF = 0xF055 ∧ k ≤ w.x.val) := by
  refine decode_cases w ?_ nofun
  simp +contextual [table, Row.withX, Row.withXY, Row.withByte, Row.withAddress, stored,
    Nat.lt_succ_iff]

theorem paints_decode : (decode w).paints = true → w = 0x00E0 ∨ w &&& 0xF000 = 0xD000 := by
  refine decode_cases w ?_ nofun
  simp +contextual [table, Row.withX, Row.withXY, Row.withByte, Row.withAddress, paints,
    Word.and_ones]

theorem nests_decode : (decode w).nests = true → w = 0x00EE ∨ w &&& 0xF000 = 0x2000 := by
  refine decode_cases w ?_ nofun
  simp +contextual [table, Row.withX, Row.withXY, Row.withByte, Row.withAddress, nests,
    Word.and_ones]

theorem setsIndex_decode : (decode w).setsIndex = true →
    w &&& 0xF000 = 0xA000 ∨ w &&& 0xF0FF = 0xF01E ∨ w &&& 0xF0FF = 0xF029 := by
  refine decode_cases w ?_ nofun
  simp +contextual [table, Row.withX, Row.withXY, Row.withByte, Row.withAddress, setsIndex]

theorem result_decode : (decode w).result? = some j → w.HasResult ∧ w.x = j := by
  refine decode_cases w ?_ nofun
  simp +contextual [table, Row.withX, Row.withXY, Row.withByte, Row.withAddress, result?,
    Word.HasResult]

theorem setsFlag_decode : (decode w).setsFlag = true → w.SetsFlag := by
  refine decode_cases w ?_ nofun
  simp +contextual [table, Row.withX, Row.withXY, Row.withByte, Row.withAddress, setsFlag,
    Word.SetsFlag]

theorem eq_of_decode_loadRegisters :
    decode w = .loadRegisters x → w &&& 0xF0FF = 0xF065 ∧ w.x = x := by
  refine decode_cases w ?_ nofun
  simp +contextual [table, Row.withX, Row.withXY, Row.withByte, Row.withAddress]

theorem writes_decode (h : (decode w).Writes j) : w.Writes j := by
  rcases h with result | ⟨flags, hj⟩ | ⟨x, hload, hj⟩
  · obtain ⟨hasResult, rfl⟩ := result_decode result
    exact Or.inl ⟨hasResult, rfl⟩
  · exact Or.inr (Or.inl ⟨setsFlag_decode flags, hj⟩)
  · obtain ⟨loads, rfl⟩ := eq_of_decode_loadRegisters hload
    exact Or.inr (Or.inr ⟨loads, hj⟩)

theorem eq_of_decode_setDelay : decode w = .setDelay x → w &&& 0xF0FF = 0xF015 := by
  refine decode_cases w ?_ nofun
  simp +contextual [table, Row.withX, Row.withXY, Row.withByte, Row.withAddress]

theorem eq_of_decode_setSound : decode w = .setSound x → w &&& 0xF0FF = 0xF018 := by
  refine decode_cases w ?_ nofun
  simp +contextual [table, Row.withX, Row.withXY, Row.withByte, Row.withAddress]

theorem draws_decode_iff : (decode w).draws = true ↔ w &&& 0xF000 = 0xC000 := by
  constructor
  · refine decode_cases w ?_ nofun
    simp +contextual [table, Row.withX, Row.withXY, Row.withByte, Row.withAddress, draws]
  · intro h
    have known : decode w = .random w.x w.kk :=
      decode_of_fits (.withByte 0xF000 0xC000 .random) (by simp [table]) ((Row.fits_iff _ w).2 h)
    rw [known, draws]

/-- A word reads a key that is armed: the one that `Vx` names for `Ex9E` and `ExA1`, the lowest one
for `Fx0A`. -/
theorem reads_decode {m : Machine} : m.reads j (decode w) = true →
    m.keypad.armed j = true ∧
      (((w &&& 0xF0FF = 0xE09E ∨ w &&& 0xF0FF = 0xE0A1) ∧ m.keyIn w.x = j) ∨
        (w &&& 0xF0FF = 0xF00A ∧ m.keypad.lowest? = some j)) := by
  refine decode_cases w ?_ nofun
  simp +contextual [table, Row.withX, Row.withXY, Row.withByte, Row.withAddress, Machine.reads,
    Keypad.lowest?_eq_some_iff]

end Instruction

namespace Machine.Confined

variable {w : Word} {m m' : Machine} (h : Confined (.decode w) m m')

include h

theorem memory_changed {a : Nat} (ha : a < 4096) (changed : m'.memory.read a ≠ m.memory.read a) :
    (w &&& 0xF0FF = 0xF033 ∧ ∃ k, k < 3 ∧ a = (m.index + k) % 4096) ∨
      (w &&& 0xF0FF = 0xF055 ∧ ∃ k, k ≤ w.x.val ∧ a = (m.index + k) % 4096) := by
  by_contra elsewhere
  refine changed (h.memory_eq a fun k hk here => elsewhere ?_)
  rw [Nat.mod_eq_of_lt ha] at here
  rcases Instruction.stored_decode hk with ⟨hw, hk⟩ | ⟨hw, hk⟩
  · exact Or.inl ⟨hw, k, hk, here.symm⟩
  · exact Or.inr ⟨hw, k, hk, here.symm⟩

theorem index_changed (changed : m'.index ≠ m.index) :
    w &&& 0xF000 = 0xA000 ∨ w &&& 0xF0FF = 0xF01E ∨ w &&& 0xF0FF = 0xF029 := by
  apply Instruction.setsIndex_decode
  by_contra kept
  exact changed (h.index_eq (Bool.eq_false_iff.2 kept))

theorem register_changed {j : Nibble} (changed : m'.v j ≠ m.v j) : w.Writes j := by
  apply Instruction.writes_decode
  by_contra unwritten
  exact changed (h.register_eq j unwritten)

theorem delay_changed (changed : m'.delay ≠ m.delay) : w &&& 0xF0FF = 0xF015 := by
  by_contra other
  exact changed (h.delay_eq fun x hx => other (Instruction.eq_of_decode_setDelay hx))

theorem sound_changed (changed : m'.sound ≠ m.sound) : w &&& 0xF0FF = 0xF018 := by
  by_contra other
  exact changed (h.sound_eq fun x hx => other (Instruction.eq_of_decode_setSound hx))

theorem random_drawn :
    m'.random.supply = m.random.supply ∧
      m'.random.drawn = m.random.drawn + if w &&& 0xF000 = 0xC000 then 1 else 0 := by
  rw [h.random_eq]
  simp only [Instruction.draws_decode_iff]
  split
  · exact ⟨rfl, rfl⟩
  · exact ⟨rfl, rfl⟩

end Machine.Confined

namespace Engine

/-- A step that succeeds carries out its instruction and ages what comes of it. -/
theorem step_aged {e : Engine} {painted : Bool} (completes : e.step.result = .ok painted) :
    ∃ done, e.machine.count.execute e.options e.machine.instruction = .ok () done ∧
      e.step.engine.machine = done.age := by
  rw [step_result] at completes
  rcases Machine.step_outcome e.options e.machine with ⟨done, hrun, hstep⟩ | ⟨fault, -, hstep⟩
  · refine ⟨done, hrun, ?_⟩
    rw [step_engine, hstep]
  · rw [hstep] at completes
    cases completes

theorem latch_changed {e : Engine} {painted : Bool} (completes : e.step.result = .ok painted)
    {k : Nibble}
    (changed : e.step.engine.machine.keypad.latch k ≠ e.machine.keypad.latch k - 1) :
    e.step.engine.machine.keypad.latch k = 0 ∧ e.consumes k = true := by
  have succeeds : e.completes = true := congrArg Except.isOk completes
  have latch := e.latch_step k
  rw [succeeds] at latch
  have read : e.consumes k = true := by
    by_contra unread
    rw [if_neg unread] at latch
    exact changed latch
  rw [if_pos read] at latch
  exact ⟨latch, read⟩

/-- **What a step leaves alone.** After a step that succeeds memory differs at most in the three
places from the index on for `Fx33`, and in the `x + 1` places for `Fx55`; the screen only for `00E0`
and `Dxyn`, the stack only for `2nnn` and `00EE`, the index only for `Annn`, `Fx1E` and `Fx29`, a
register only where the word may write to it. A timer has run down by one unless it was set, by
`Fx15` and `Fx18`, and so has a latch unless one of the words that ask for keys has read it and
cleared it. `Cxkk` draws one random byte and no other word draws any. -/
theorem step_confined (e : Engine) {painted : Bool} (completes : e.step.result = .ok painted) :
    let m := e.machine
    let m' := e.step.engine.machine
    let w := m.word
    (∀ a, a < 4096 → m'.memory.read a ≠ m.memory.read a →
      (w &&& 0xF0FF = 0xF033 ∧ ∃ k, k < 3 ∧ a = (m.index + k) % 4096) ∨
      (w &&& 0xF0FF = 0xF055 ∧ ∃ k, k ≤ w.x.val ∧ a = (m.index + k) % 4096)) ∧
    (m'.screen ≠ m.screen → w = 0x00E0 ∨ w &&& 0xF000 = 0xD000) ∧
    (m'.slots ≠ m.slots ∨ m'.sp ≠ m.sp → w = 0x00EE ∨ w &&& 0xF000 = 0x2000) ∧
    (m'.index ≠ m.index →
      w &&& 0xF000 = 0xA000 ∨ w &&& 0xF0FF = 0xF01E ∨ w &&& 0xF0FF = 0xF029) ∧
    (∀ j, m'.v j ≠ m.v j → w.Writes j) ∧
    (m'.delay ≠ countDown m.delay → w &&& 0xF0FF = 0xF015) ∧
    (m'.sound ≠ countDown m.sound → w &&& 0xF0FF = 0xF018) ∧
    (∀ k, m'.keypad.latch k ≠ m.keypad.latch k - 1 →
      m'.keypad.latch k = 0 ∧ m.keypad.armed k = true ∧
        (((w &&& 0xF0FF = 0xE09E ∨ w &&& 0xF0FF = 0xE0A1) ∧ m.keyIn w.x = k) ∨
          (w &&& 0xF0FF = 0xF00A ∧ m.keypad.lowest? = some k))) ∧
    m'.random.supply = m.random.supply ∧
    m'.random.drawn = m.random.drawn + if w &&& 0xF000 = 0xC000 then 1 else 0 := by
  intro m m' w
  obtain ⟨done, hrun, after : m' = done.age⟩ := step_aged completes
  have confined : Machine.Confined (.decode w) m.count done := Machine.execute_confined hrun
  refine ⟨fun a ha changed => ?_, fun changed => ?_, fun changed => ?_, fun changed => ?_,
    fun j changed => ?_, fun changed => ?_, fun changed => ?_, fun k changed => ?_, ?_⟩
  · rw [after] at changed
    exact confined.memory_changed ha changed
  · apply Instruction.paints_decode
    by_contra silent
    rw [after] at changed
    exact changed ((Machine.execute_shown hrun).screen_eq (Bool.eq_false_iff.2 silent))
  · apply Instruction.nests_decode
    by_contra flat
    obtain ⟨slots, sp⟩ := Machine.execute_stack hrun (Bool.eq_false_iff.2 flat)
    rw [after] at changed
    exact changed.elim (absurd slots) (absurd sp)
  · rw [after] at changed
    exact confined.index_changed changed
  · rw [after] at changed
    exact confined.register_changed changed
  · rw [after] at changed
    exact confined.delay_changed fun same => changed (congrArg countDown same)
  · rw [after] at changed
    exact confined.sound_changed fun same => changed (congrArg countDown same)
  · obtain ⟨cleared, read⟩ := latch_changed completes changed
    exact ⟨cleared, Instruction.reads_decode read⟩
  · rw [after]
    exact confined.random_drawn

/-- The word `FF55` stores all registers two bytes before the last address and on from the first. -/
def spiller : Engine where
  machine :=
    { memory := .writeAll .blank 0x200 [0xFF, 0x55]
      registers := .ofFn fun _ => 0xAA
      index := 0xFFFE
      delay := 1
      random := .cycle #[] }
  log := ⟨.error, false⟩

theorem word_spiller : spiller.machine.word = 0xFF55 :=
  Machine.word_of_writeAll rfl (Nat.zero_le _)

theorem step_confined_spiller :
    let m := spiller.machine
    let m' := spiller.step.engine.machine
    spiller.step.result = .ok false ∧
    (m'.memory.read 13 ≠ m.memory.read 13 ∧ ∃ k, k ≤ 15 ∧ 13 = (m.index + k) % 4096) ∧
    m'.memory.read 14 = m.memory.read 14 ∧ m'.delay = countDown m.delay := by
  intro m m'
  have completes : spiller.step.result = .ok false := by decide +kernel
  obtain ⟨memory, -, -, -, -, delay, -⟩ := spiller.step_confined completes
  rw [word_spiller] at memory delay
  have stored : ∀ a, a < 4096 → m'.memory.read a ≠ m.memory.read a →
      ∃ k, k ≤ 15 ∧ a = (0xFFFE + k) % 4096 := by
    intro a ha changed
    rcases memory a ha changed with ⟨digits, -⟩ | ⟨-, k, hk, here⟩
    · exact absurd digits (by decide)
    · exact ⟨k, hk, here⟩
  have changed : m'.memory.read 13 ≠ m.memory.read 13 := by decide +kernel
  refine ⟨completes, ⟨changed, stored 13 (by decide) changed⟩, ?_, ?_⟩
  · by_contra beyond
    obtain ⟨k, hk, here⟩ := stored 14 (by decide) beyond
    omega
  · by_contra set
    exact absurd (delay set) (by decide)

end Engine
end ChipEight
