import ChipEight.Machine.Step

/-!
# What one cycle can do

Of all instructions only `call` and `ret` touch the stack. The others are plain: they leave the
stack alone, raise no key latch, and put only bounded numbers into the program counter and the
index register. Only two write to the screen.

* `Machine.Executed` and `Machine.Fails`: what carrying out an instruction makes of the machine,
  and when it fails.
* `Machine.execute_cases`: an instruction does one or the other, and one that fails has changed
  nothing before.
* `Machine.execute_shown`: what it does to the screen, to the bits that tell of it, and to the
  counters.
* `Machine.step_cases`: a whole cycle, on the machine that has counted it; it answers whether its
  instruction is one that paints.
* `Machine.step_outcome`: the same by the instruction's result, for what `Plain` leaves out.
-/

namespace ChipEight

/-- Does the instruction write to the screen? -/
def Instruction.paints : Instruction → Bool
  | .clearScreen => true
  | .draw _ _ _ => true
  | _ => false

/-- Does the instruction enter or leave a subroutine? -/
def Instruction.nests : Instruction → Bool
  | .call _ => true
  | .ret => true
  | _ => false

namespace Machine

/-- A return address is stored as it is, unless storing it fails. -/
theorem toNat_returnAddress {pc : Nat} (storable : pc ≤ 65535) :
    (BitVec.ofNat 16 pc).toNat = pc := by
  rw [BitVec.toNat_ofNat]
  exact Nat.mod_eq_of_lt (Nat.lt_succ_of_le storable)

@[simp] theorem pc_age (m : Machine) : m.age.pc = m.pc := by
  unfold age
  rfl

@[simp] theorem stack_age (m : Machine) : m.age.stack = m.stack := by
  unfold age
  rfl

@[simp] theorem memory_age (m : Machine) : m.age.memory = m.memory := by
  unfold age
  rfl

@[simp] theorem index_age (m : Machine) : m.age.index = m.index := by
  unfold age
  rfl

@[simp] theorem v_age (m : Machine) (x : Nibble) : m.age.v x = m.v x := by
  unfold age v
  rfl

@[simp] theorem pc_arm (m : Machine) (down : KeySet) : (m.arm down).pc = m.pc := by
  unfold arm
  rfl

@[simp] theorem stack_arm (m : Machine) (down : KeySet) : (m.arm down).stack = m.stack := by
  unfold arm
  rfl

theorem v_setV (m : Machine) (x y : Nibble) (b : Byte) :
    (m.setV x b).v y = if x = y then b else m.v y :=
  Registers.get_set m.registers x y b

theorem v_setFlagged (m : Machine) (x y : Nibble) (b : Byte) (up : Bool) :
    (m.setFlagged x b up).v y =
      if Registers.flag = y then flagByte up else if x = y then b else m.v y := by
  show ((m.registers.set x b).set Registers.flag (flagByte up)).get y = _
  rw [Registers.get_set, Registers.get_set]
  rfl

/-- What every instruction keeps that neither enters nor leaves a subroutine. -/
structure Plain (m m' : Machine) : Prop where
  slots_eq : m'.slots = m.slots
  sp_eq : m'.sp = m.sp
  pc_eq_or_lt : m'.pc = m.pc ∨ m'.pc < 65536
  index_eq_or_lt : m'.index = m.index ∨ m'.index < 65536
  latch_le : ∀ k, m'.keypad.latch k ≤ m.keypad.latch k

namespace Plain

variable {m m' : Machine}

theorem of_eq
    (hslots : m'.slots = m.slots) (hsp : m'.sp = m.sp) (hpc : m'.pc = m.pc)
    (hindex : m'.index = m.index) (hkeypad : m'.keypad = m.keypad) :
    Plain m m' where
  slots_eq := hslots
  sp_eq := hsp
  pc_eq_or_lt := Or.inl hpc
  index_eq_or_lt := Or.inl hindex
  latch_le k := Nat.le_of_eq (by rw [hkeypad])

theorem stack_eq (h : Plain m m') : m'.stack = m.stack :=
  stack_congr h.slots_eq h.sp_eq

theorem jump (h : Plain m m') {pc : Nat} (hpc : pc < 65536) :
    Plain m { m' with pc } where
  slots_eq := h.slots_eq
  sp_eq := h.sp_eq
  pc_eq_or_lt := Or.inr hpc
  index_eq_or_lt := h.index_eq_or_lt
  latch_le := h.latch_le

theorem next (h : Plain m m') : Plain m m'.next :=
  h.jump (Nat.mod_lt _ (by decide))

theorem skipIf (h : Plain m m') (condition : Bool) : Plain m (m'.skipIf condition) :=
  h.jump (Nat.mod_lt _ (by decide))

theorem setIndex (m : Machine) {index : Nat} (hindex : index < 65536) :
    Plain m { m with index } where
  slots_eq := rfl
  sp_eq := rfl
  pc_eq_or_lt := Or.inl rfl
  index_eq_or_lt := Or.inr hindex
  latch_le _ := Nat.le_refl _

theorem setV (h : Plain m m') (x : Nibble) (b : Byte) : Plain m (m'.setV x b) where
  slots_eq := h.slots_eq
  sp_eq := h.sp_eq
  pc_eq_or_lt := h.pc_eq_or_lt
  index_eq_or_lt := h.index_eq_or_lt
  latch_le := h.latch_le

theorem consume (m : Machine) (key : Nibble) :
    Plain m { m with keypad := m.keypad.consume key } where
  slots_eq := rfl
  sp_eq := rfl
  pc_eq_or_lt := Or.inl rfl
  index_eq_or_lt := Or.inl rfl
  latch_le k := by
    rw [Keypad.latch_consume]
    split
    · exact Nat.zero_le _
    · exact Nat.le_refl _

theorem skipOnKey (m : Machine) (key : Nibble) (wanted : Bool) :
    Plain m (m.skipOnKey key wanted) := by
  unfold Machine.skipOnKey
  cases m.keypad.armed key with
  | false =>
      exact (Plain.of_eq rfl rfl rfl rfl rfl).skipIf _
  | true =>
      exact (Plain.consume m key).skipIf _

theorem awaitKey (m : Machine) (x : Nibble) : Plain m (m.awaitKey x) := by
  unfold Machine.awaitKey
  cases m.keypad.lowest? with
  | none =>
      exact .of_eq rfl rfl rfl rfl rfl
  | some key =>
      exact ((Plain.consume m key).setV x _).next

end Plain

/-- What carrying out an instruction makes of the machine when it does not fail. -/
inductive Executed (m : Machine) : Instruction → Machine → Prop
  | call (target : Address)
      (room : m.sp < stackDepth) (storable : m.pc ≤ 65535) :
      Executed m (.call target) { m.push (BitVec.ofNat 16 m.pc) with pc := target.toNat }
  | ret {caller : Word} {callers : List Word}
      (top : m.stack = caller :: callers) :
      Executed m .ret { m.pop with pc := caller.toNat + 2 }
  | plain {i : Instruction} {m' : Machine}
      (flat : i.nests = false) (kept : Plain m m') :
      Executed m i m'

/-- The fault that carrying out an instruction ends with, if it fails. -/
inductive Fails (o : Options) (m : Machine) : Instruction → Fault → Prop
  | unknown (w : Word) (strict : o.strict = true) :
      Fails o m (.unknown w) (.unknownOpcode w m.pc)
  | underflow (empty : m.sp = 0) :
      Fails o m .ret (.stackUnderflow m.pc)
  | overflow (target : Address) (full : stackDepth ≤ m.sp) :
      Fails o m (.call target) (.stackOverflow m.pc)
  | unstorable (target : Address)
      (room : m.sp < stackDepth) (high : 65535 < m.pc) :
      Fails o m (.call target) (.unstorableReturn m.pc)

/-- A call fails before it changes anything, or not at all. -/
theorem enter_cases (o : Options) (m : Machine) (target : Address) :
    (∃ m', (enter target).run m = .ok () m' ∧ Executed m (.call target) m') ∨
      ∃ fault, (enter target).run m = .error fault m ∧ Fails o m (.call target) fault := by
  by_cases full : stackDepth ≤ m.sp
  · exact Or.inr ⟨_, enter_of_full full target, .overflow target full⟩
  · have room : m.sp < stackDepth := Nat.lt_of_not_le full
    by_cases high : 65535 < m.pc
    · exact Or.inr ⟨_, enter_of_unstorable room high target, .unstorable target room high⟩
    · have storable : m.pc ≤ 65535 := Nat.le_of_not_lt high
      exact Or.inl ⟨_, enter_of_room room storable target, .call target room storable⟩

/-- A return fails before it changes anything, or not at all. -/
theorem leave_cases (o : Options) (m : Machine) :
    (∃ m', leave.run m = .ok () m' ∧ Executed m .ret m') ∨
      ∃ fault, leave.run m = .error fault m ∧ Fails o m .ret fault := by
  cases hstack : m.stack with
  | nil =>
      have empty : m.sp = 0 := m.stack_eq_nil_iff.1 hstack
      exact Or.inr ⟨_, leave_of_empty empty, .underflow empty⟩
  | cons caller callers =>
      exact Or.inl ⟨_, leave_of_stack hstack, .ret hstack⟩

/-- A word that is no instruction fails without a change, or makes none. -/
theorem stray_cases (o : Options) (m : Machine) (w : Word) :
    (stray o w).run m = .ok () m ∨
      ∃ fault, (stray o w).run m = .error fault m ∧ Fails o m (.unknown w) fault := by
  cases strict : o.strict with
  | true =>
      exact Or.inr ⟨_, stray_of_strict strict w, .unknown w strict⟩
  | false =>
      exact Or.inl (stray_of_lenient strict w)

theorem plain_shiftLeft (o : Options) (m : Machine) (x : Nibble) :
    Plain m (if o.legacyShift then m.shiftRight x else m.shiftLeft x) := by
  split
  · exact .of_eq rfl rfl rfl rfl rfl
  · exact .of_eq rfl rfl rfl rfl rfl

theorem glyphAddress_lt (b : Byte) : Memory.glyphSize * (b.toNat % 16) < 65536 := by
  rw [Memory.glyphSize]
  omega

/-- An instruction that does not nest either makes a plain change or is an unknown word that a
strict machine fails on. -/
theorem execute_flat (o : Options) (m : Machine) {i : Instruction} (flat : i.nests = false) :
    (∃ m', m.execute o i = .ok () m' ∧ Plain m m') ∨
      ∃ fault, m.execute o i = .error fault m ∧ Fails o m i fault := by
  cases i with
  | call target =>
      cases flat
  | ret =>
      cases flat
  | unknown w =>
      exact (stray_cases o m w).imp (⟨m, ·, .of_eq rfl rfl rfl rfl rfl⟩) id
  | jump target =>
      have low := target.isLt
      exact Or.inl ⟨_, rfl, (Plain.of_eq rfl rfl rfl rfl rfl).jump (by omega)⟩
  | jumpFrom target =>
      have low := target.isLt
      have offset := (m.v 0).isLt
      exact Or.inl ⟨_, rfl, (Plain.of_eq rfl rfl rfl rfl rfl).jump (by omega)⟩
  | skipIfByte x b =>
      exact Or.inl ⟨_, rfl, .skipIf (.of_eq rfl rfl rfl rfl rfl) _⟩
  | skipUnlessByte x b =>
      exact Or.inl ⟨_, rfl, .skipIf (.of_eq rfl rfl rfl rfl rfl) _⟩
  | skipIfSame x y =>
      exact Or.inl ⟨_, rfl, .skipIf (.of_eq rfl rfl rfl rfl rfl) _⟩
  | skipUnlessSame x y =>
      exact Or.inl ⟨_, rfl, .skipIf (.of_eq rfl rfl rfl rfl rfl) _⟩
  | skipIfKey x =>
      exact Or.inl ⟨_, rfl, .skipOnKey m _ _⟩
  | skipUnlessKey x =>
      exact Or.inl ⟨_, rfl, .skipOnKey m _ _⟩
  | waitKey x =>
      exact Or.inl ⟨_, rfl, .awaitKey m x⟩
  | shiftLeft x =>
      exact Or.inl ⟨_, rfl, (plain_shiftLeft o m x).next⟩
  | loadIndex target =>
      have low := target.isLt
      exact Or.inl ⟨_, rfl, (Plain.setIndex m (by omega)).next⟩
  | addIndex x =>
      have low := Nat.mod_lt (m.index + (m.v x).toNat) (show 0 < 65536 by decide)
      exact Or.inl ⟨_, rfl, ((Plain.setIndex m low).setV _ _).next⟩
  | pointGlyph x =>
      exact Or.inl ⟨_, rfl, (Plain.setIndex m (glyphAddress_lt (m.v x))).next⟩
  | _ =>
      exact Or.inl ⟨_, rfl, .next (.of_eq rfl rfl rfl rfl rfl)⟩

/-- **An instruction that fails has changed nothing.** All others make of the machine what
`Executed` says. -/
theorem execute_cases (o : Options) (m : Machine) (i : Instruction) :
    (∃ m', m.execute o i = .ok () m' ∧ Executed m i m') ∨
      ∃ fault, m.execute o i = .error fault m ∧ Fails o m i fault := by
  cases hnests : i.nests with
  | false =>
      rcases execute_flat o m hnests with ⟨m', hrun, kept⟩ | failed
      · exact Or.inl ⟨m', hrun, .plain hnests kept⟩
      · exact Or.inr failed
  | true =>
      cases i with
      | call target =>
          exact enter_cases o m target
      | ret =>
          exact leave_cases o m
      | _ =>
          cases hnests

theorem Executed.of_execute {o : Options} {m done : Machine} {i : Instruction}
    (hrun : m.execute o i = .ok () done) : Executed m i done := by
  rcases execute_cases o m i with ⟨m', hok, executed⟩ | ⟨fault, herror, -⟩
  · rw [hrun] at hok
    cases hok
    exact executed
  · rw [hrun] at herror
    cases herror

theorem reached_of_execute {o : Options} {m reached : Machine} {i : Instruction} {fault : Fault}
    (hrun : m.execute o i = .error fault reached) : reached = m := by
  rcases execute_cases o m i with ⟨m', hok, -⟩ | ⟨fault, herror, -⟩
  · rw [hrun] at hok
    cases hok
  · rw [hrun] at herror
    cases herror
    rfl

/-- Entering or leaving a subroutine moves the stack and the program counter. -/
theorem execute_nests {o : Options} {m done : Machine} {i : Instruction} (nests : i.nests = true)
    (hrun : m.execute o i = .ok () done) : ∃ slots sp pc, done = { m with slots, sp, pc } := by
  cases Executed.of_execute hrun with
  | call target room storable =>
      exact ⟨_, _, _, rfl⟩
  | ret top =>
      exact ⟨_, _, _, rfl⟩
  | plain flat kept =>
      rw [nests] at flat
      cases flat

theorem execute_unknown {o : Options} {m done : Machine} {w : Word}
    (hrun : m.execute o (.unknown w) = .ok () done) : done = m := by
  have hstray : (stray o w).run m = .ok () done := hrun
  rcases stray_cases o m w with hok | ⟨fault, herror, -⟩
  · rw [hstray] at hok
    cases hok
    rfl
  · rw [hstray] at herror
    cases herror

theorem Fails.execute {o : Options} {m : Machine} {i : Instruction} {fault : Fault}
    (h : Fails o m i fault) : m.execute o i = .error fault m := by
  cases h with
  | unknown w strict =>
      exact stray_of_strict strict w
  | underflow empty =>
      exact leave_of_empty empty
  | overflow target full =>
      exact enter_of_full full target
  | unstorable target room high =>
      exact enter_of_unstorable room high target

theorem Fails.congr {o : Options} {m m' : Machine} {i : Instruction} {fault : Fault}
    (h : Fails o m i fault) (hsp : m'.sp = m.sp) (hpc : m'.pc = m.pc) :
    Fails o m' i fault := by
  cases h with
  | unknown w strict =>
      rw [← hpc]
      exact .unknown w strict
  | underflow empty =>
      rw [← hpc]
      exact .underflow (hsp.trans empty)
  | overflow target full =>
      rw [← hpc]
      exact .overflow target (hsp ▸ full)
  | unstorable target room high =>
      rw [← hpc]
      exact .unstorable target (hsp ▸ room) (hpc ▸ high)

/-! ### Changes elsewhere -/

/-- An outcome with something done to its machine. -/
def Outcome.map (change : Machine → Machine) : Outcome → Outcome
  | .ok () done => .ok () (change done)
  | .error fault reached => .error fault (change reached)

/-- The change is to nothing that calls and returns read or write. -/
def Bypasses (change : Machine → Machine) : Prop :=
  ∀ (m : Machine) (slots : Vector Word stackDepth) (sp pc : Nat),
    change { m with slots, sp, pc } = { change m with slots, sp, pc }

section

variable {change : Machine → Machine}

theorem Bypasses.pc_eq (h : Bypasses change) (m : Machine) : (change m).pc = m.pc := by
  have same := congrArg Machine.pc (h m m.slots m.sp m.pc)
  exact same

theorem Bypasses.sp_eq (h : Bypasses change) (m : Machine) : (change m).sp = m.sp := by
  have same := congrArg Machine.sp (h m m.slots m.sp m.pc)
  exact same

theorem Bypasses.slots_eq (h : Bypasses change) (m : Machine) : (change m).slots = m.slots := by
  have same := congrArg Machine.slots (h m m.slots m.sp m.pc)
  exact same

theorem enter_map (h : Bypasses change) (m : Machine) (target : Address) :
    (enter target).run (change m) = Outcome.map change ((enter target).run m) := by
  by_cases full : stackDepth ≤ m.sp
  · rw [enter_of_full full, enter_of_full (h.sp_eq m ▸ full), h.pc_eq]
    rfl
  · have room : m.sp < stackDepth := Nat.lt_of_not_le full
    by_cases high : 65535 < m.pc
    · rw [enter_of_unstorable room high,
        enter_of_unstorable (h.sp_eq m ▸ room) (h.pc_eq m ▸ high), h.pc_eq]
      rfl
    · have storable : m.pc ≤ 65535 := Nat.le_of_not_lt high
      rw [enter_of_room room storable, enter_of_room (h.sp_eq m ▸ room) (h.pc_eq m ▸ storable),
        push, h.slots_eq, h.sp_eq, h.pc_eq]
      exact congrArg (EStateM.Result.ok ()) (h m _ _ _).symm

theorem leave_map (h : Bypasses change) (m : Machine) :
    leave.run (change m) = Outcome.map change (leave.run m) := by
  have same : (change m).stack = m.stack := stack_congr (h.slots_eq m) (h.sp_eq m)
  cases hstack : m.stack with
  | nil =>
      rw [leave_of_empty (m.stack_eq_nil_iff.1 hstack),
        leave_of_empty ((stack_eq_nil_iff _).1 (same.trans hstack)), h.pc_eq]
      rfl
  | cons caller callers =>
      rw [leave_of_stack hstack, leave_of_stack (same.trans hstack), pop, h.sp_eq, h.slots_eq]
      exact congrArg (EStateM.Result.ok ()) (h m _ _ _).symm

theorem stray_map (h : Bypasses change) (o : Options) (m : Machine) (w : Word) :
    (stray o w).run (change m) = Outcome.map change ((stray o w).run m) := by
  cases strict : o.strict with
  | true =>
      rw [stray_of_strict strict, stray_of_strict strict, h.pc_eq]
      rfl
  | false =>
      rw [stray_of_lenient strict, stray_of_lenient strict]
      rfl

end

/-! ### Writing to the screen -/

/-- What an instruction that paints or does not makes of the screen, the flag and the counters. -/
structure Shown (m : Machine) (painted : Bool) (m' : Machine) : Prop where
  screen_eq : painted = false → m'.screen = m.screen
  redraw_eq : m'.redraw = (m.redraw || painted)
  dirty_eq : m'.dirty = (m.dirty || painted)
  frames_eq : m'.frames = m.frames + painted.toNat
  cycles_eq : m'.cycles = m.cycles

namespace Shown

variable {m m' : Machine}

theorem of_eq (hscreen : m'.screen = m.screen) (hredraw : m'.redraw = m.redraw)
    (hdirty : m'.dirty = m.dirty) (hframes : m'.frames = m.frames) (hcycles : m'.cycles = m.cycles) :
    Shown m false m' :=
  ⟨fun _ => hscreen, hredraw.trans (Bool.or_false _).symm, hdirty.trans (Bool.or_false _).symm,
    hframes, hcycles⟩

theorem of_paint (hredraw : m'.redraw = true) (hdirty : m'.dirty = true)
    (hframes : m'.frames = m.frames + 1) (hcycles : m'.cycles = m.cycles) :
    Shown m true m' :=
  ⟨nofun, hredraw.trans (Bool.or_true _).symm, hdirty.trans (Bool.or_true _).symm,
    hframes, hcycles⟩

theorem next {painted : Bool} (h : Shown m painted m') : Shown m painted m'.next :=
  ⟨h.screen_eq, h.redraw_eq, h.dirty_eq, h.frames_eq, h.cycles_eq⟩

theorem skipIf {painted : Bool} (h : Shown m painted m') (condition : Bool) :
    Shown m painted (m'.skipIf condition) :=
  ⟨h.screen_eq, h.redraw_eq, h.dirty_eq, h.frames_eq, h.cycles_eq⟩

theorem age {painted : Bool} (h : Shown m painted m') : Shown m painted m'.age := by
  unfold Machine.age
  exact ⟨h.screen_eq, h.redraw_eq, h.dirty_eq, h.frames_eq, h.cycles_eq⟩

theorem skipOnKey (m : Machine) (key : Nibble) (wanted : Bool) :
    Shown m false (m.skipOnKey key wanted) := by
  unfold Machine.skipOnKey
  cases m.keypad.armed key <;> exact .of_eq rfl rfl rfl rfl rfl

theorem awaitKey (m : Machine) (x : Nibble) : Shown m false (m.awaitKey x) := by
  unfold Machine.awaitKey
  cases m.keypad.lowest? <;> exact .of_eq rfl rfl rfl rfl rfl

end Shown

theorem execute_shown {o : Options} {m done : Machine} {i : Instruction}
    (hrun : m.execute o i = .ok () done) : Shown m i.paints done := by
  cases i with
  | clearScreen =>
      cases hrun
      exact .of_paint rfl rfl rfl rfl
  | draw x y n =>
      cases hrun
      exact .of_paint rfl rfl rfl rfl
  | call target =>
      obtain ⟨slots, sp, pc, rfl⟩ := execute_nests rfl hrun
      exact .of_eq rfl rfl rfl rfl rfl
  | ret =>
      obtain ⟨slots, sp, pc, rfl⟩ := execute_nests rfl hrun
      exact .of_eq rfl rfl rfl rfl rfl
  | unknown w =>
      cases execute_unknown hrun
      exact .of_eq rfl rfl rfl rfl rfl
  | shiftLeft x =>
      cases hrun
      split <;> exact .of_eq rfl rfl rfl rfl rfl
  | skipIfKey x =>
      cases hrun
      exact .skipOnKey m _ _
  | skipUnlessKey x =>
      cases hrun
      exact .skipOnKey m _ _
  | waitKey x =>
      cases hrun
      exact .awaitKey m x
  | jump target =>
      cases hrun
      exact .of_eq rfl rfl rfl rfl rfl
  | jumpFrom target =>
      cases hrun
      exact .of_eq rfl rfl rfl rfl rfl
  | skipIfByte x b =>
      cases hrun
      exact .skipIf (.of_eq rfl rfl rfl rfl rfl) _
  | skipUnlessByte x b =>
      cases hrun
      exact .skipIf (.of_eq rfl rfl rfl rfl rfl) _
  | skipIfSame x y =>
      cases hrun
      exact .skipIf (.of_eq rfl rfl rfl rfl rfl) _
  | skipUnlessSame x y =>
      cases hrun
      exact .skipIf (.of_eq rfl rfl rfl rfl rfl) _
  | _ =>
      cases hrun
      exact .next (.of_eq rfl rfl rfl rfl rfl)

/-! ### A whole cycle -/

/-- A cycle ages what its instruction makes of the machine and reports whether that painted, or it
fails as the instruction does. -/
theorem step_outcome (o : Options) (m : Machine) :
    (∃ done, m.count.execute o m.instruction = .ok () done ∧
        m.step o = (done.age, .ok m.instruction.paints)) ∨
      ∃ fault, m.count.execute o m.instruction = .error fault m.count ∧
        m.step o = (m.count, .error fault) := by
  unfold step
  cases hrun : m.count.execute o m.instruction with
  | ok _ done =>
      have reported : done.age.dirty = m.instruction.paints :=
        (execute_shown hrun).age.dirty_eq.trans (Bool.false_or _)
      exact Or.inl ⟨done, rfl, congrArg (fun painted => (done.age, Except.ok painted)) reported⟩
  | error fault reached =>
      rw [reached_of_execute hrun]
      exact Or.inr ⟨fault, rfl, rfl⟩

/-- A cycle whose instruction does not fail. -/
theorem step_of_execute {o : Options} {m done : Machine} {i : Instruction}
    (hi : m.instruction = i) (hrun : m.count.execute o i = .ok () done) :
    m.step o = (done.age, .ok i.paints) := by
  subst hi
  rcases step_outcome o m with ⟨done', hrun', hstep⟩ | ⟨fault, hrun', -⟩
  · rw [hrun] at hrun'
    cases hrun'
    exact hstep
  · rw [hrun] at hrun'
    cases hrun'

/-- A failing cycle only counts itself: its instruction changed nothing before it failed. -/
theorem step_fault {o : Options} {m : Machine} {fault : Fault}
    (h : (m.step o).2 = .error fault) : (m.step o).1 = m.count := by
  rcases step_outcome o m with ⟨done, -, hstep⟩ | ⟨cause, -, hstep⟩
  · rw [hstep] at h
    cases h
  · rw [hstep]

/-- A cycle either carries out its instruction and ages the machine, or fails and only counts. -/
theorem step_cases (o : Options) (m : Machine) :
    (∃ done, Executed m.count m.instruction done ∧
        m.step o = (done.age, .ok m.instruction.paints)) ∨
      ∃ fault, Fails o m m.instruction fault ∧
        m.step o = (m.count, .error fault) := by
  rcases execute_cases o m.count m.instruction with
    ⟨done, hrun, executed⟩ | ⟨fault, hrun, fails⟩
  · exact Or.inl ⟨done, executed, step_of_execute rfl hrun⟩
  -- the machine that the failing instruction saw has the same stack and program counter
  · exact Or.inr ⟨fault, fails.congr rfl rfl, by rw [step, hrun]⟩

theorem step_eq_error_iff {o : Options} {m : Machine} {fault : Fault} :
    (m.step o).2 = .error fault ↔ Fails o m m.instruction fault := by
  constructor
  · intro h
    rcases step_cases o m with ⟨done, -, hstep⟩ | ⟨cause, fails, hstep⟩
    · rw [hstep] at h
      cases h
    · rw [hstep] at h
      cases h
      exact fails
  · intro fails
    have counted : Fails o m.count m.instruction fault := fails.congr rfl rfl
    rw [step, counted.execute]

end Machine
end ChipEight
