import ChipEight.Proofs.Assembly
import ChipEight.Proofs.Loading
import Mathlib.Algebra.GroupWithZero.Nat

/-!
# Programs that only add constants

A program of words `7xkk` runs through its words once, from the first to the last. Each adds its
byte to its own register, and no word touches the memory, so afterwards every register holds the sum
of what was meant for it.

* `addedTo`: the sum of what is meant for one register.
* `Machine.Ahead`: the words that stand in memory from the program counter on.
* `Machine.Summed`: two states with some words between them.
* `Engine.adds_step`: what one word does.
* `Engine.adds_after`: what as many steps make of the machine as there are words ahead, or fewer.
* `Engine.immediate_sums`: a program from its load to its end.
-/

namespace ChipEight

/-- What words `7xkk` add to a register, all together. -/
def addedTo (j : Nibble) (words : List Word) : Nat :=
  ((words.filter (·.x = j)).map (·.kk.toNat)).sum

theorem addedTo_append (j : Nibble) (words more : List Word) :
    addedTo j (words ++ more) = addedTo j words + addedTo j more := by
  simp [addedTo]

theorem addedTo_replicate (j : Nibble) (n : Nat) (w : Word) :
    addedTo j (List.replicate n w) = if w.x = j then n * w.kk.toNat else 0 := by
  by_cases h : w.x = j <;> simp [addedTo, h]

theorem addedTo_singleton (j : Nibble) (w : Word) :
    addedTo j [w] = if w.x = j then w.kk.toNat else 0 := by
  rw [← List.replicate_one, addedTo_replicate, Nat.one_mul]

namespace Machine

variable {m m' m'' : Machine} {w : Word} {words more rest : List Word}

/-- The words stand in memory from the program counter on, and end where the memory does at the
latest. -/
structure Ahead (m : Machine) (words : List Word) : Prop where
  fits : m.pc + 2 * words.length ≤ 4096
  slice_eq : m.memory.slice m.pc (2 * words.length) = assemble words

theorem Ahead.room (h : m.Ahead (w :: rest)) : m.pc + 2 + 2 * rest.length ≤ 4096 := by
  have fits := h.fits
  rw [List.length_cons] at fits
  omega

/-- The bytes of the first word, and those of the others behind them. -/
theorem Ahead.bytes_eq (h : m.Ahead (w :: rest)) :
    m.memory.read m.pc = w.toBytes.1 ∧ m.memory.read (m.pc + 1) = w.toBytes.2 ∧
      m.memory.slice (m.pc + 2) (2 * rest.length) = assemble rest := by
  have slice := h.slice_eq
  rw [List.length_cons, Nat.mul_succ, Memory.slice_succ, Memory.slice_succ, assemble_cons] at slice
  obtain ⟨high, slice⟩ := List.cons.inj slice
  obtain ⟨low, slice⟩ := List.cons.inj slice
  exact ⟨high, low, slice⟩

theorem Ahead.word_eq (h : m.Ahead (w :: rest)) : m.word = w := by
  obtain ⟨high, low, -⟩ := h.bytes_eq
  have room := h.room
  have here : m.codeAddress = m.pc := Nat.mod_eq_of_lt (by omega)
  rw [word, here, high, low, Word.ofBytes_toBytes]

/-- Two addresses further on, the other words are ahead. -/
theorem Ahead.tail (h : m.Ahead (w :: rest)) (hpc : m'.pc = m.pc + 2)
    (hmemory : m'.memory = m.memory) : m'.Ahead rest where
  fits := hpc ▸ h.room
  slice_eq := by rw [hpc, hmemory, h.bytes_eq.2.2]

/-- The words were added up, and the program counter stands behind them. -/
structure Summed (m : Machine) (words : List Word) (m' : Machine) : Prop where
  pc_eq : m'.pc = m.pc + 2 * words.length
  memory_eq : m'.memory = m.memory
  v_eq : ∀ j, m'.v j = m.v j + .ofNat 8 (addedTo j words)

theorem Summed.refl (m : Machine) : m.Summed [] m where
  pc_eq := rfl
  memory_eq := rfl
  v_eq _ := (BitVec.add_zero _).symm

theorem Summed.trans (h : m.Summed words m') (h' : m'.Summed more m'') :
    m.Summed (words ++ more) m'' where
  pc_eq := by rw [h'.pc_eq, h.pc_eq, List.length_append, Nat.mul_add, Nat.add_assoc]
  memory_eq := h'.memory_eq.trans h.memory_eq
  v_eq j := by rw [h'.v_eq, h.v_eq, addedTo_append, BitVec.ofNat_add, BitVec.add_assoc]

theorem step_addByte (o : Options) (adds : m.word &&& 0xF000 = 0x7000) :
    m.step o = ((m.count.setV m.word.x (m.v m.word.x + m.word.kk)).next.age, .ok false) := by
  have fetched : m.instruction = .addByte m.word.x m.word.kk :=
    Instruction.decode_withByte (by simp [Instruction.table]) adds
  exact step_of_execute fetched rfl

end Machine

namespace Engine

variable {e : Engine} {w : Word} {words rest : List Word}

/-- One word succeeds, changes nothing on the screen, and is added up. -/
theorem adds_step (ahead : e.machine.Ahead (w :: rest)) (adds : w &&& 0xF000 = 0x7000) :
    e.step.result = .ok false ∧ e.machine.Summed [w] e.step.engine.machine := by
  have room := ahead.room
  have hstep := Machine.step_addByte e.options (m := e.machine) (by rwa [ahead.word_eq])
  rw [ahead.word_eq] at hstep
  rw [step_result, step_engine, hstep]
  refine ⟨rfl, ?_, ?_, fun j => ?_⟩
  · rw [Machine.pc_age]
    exact Nat.mod_eq_of_lt (show e.machine.pc + 2 < 65536 by omega)
  · rw [Machine.memory_age]
    rfl
  · rw [Machine.v_age, addedTo_singleton]
    refine (Machine.v_setV e.machine.count w.x j _).trans ?_
    split
    next same =>
      rw [BitVec.ofNat_toNat, BitVec.setWidth_eq, same]
    next =>
      exact (BitVec.add_zero _).symm

/-- As many steps as there are words, or fewer, add up as many of the words. -/
theorem adds_after (ahead : e.machine.Ahead words) (adds : ∀ w ∈ words, w &&& 0xF000 = 0x7000)
    {n : Nat} (h : n ≤ words.length) :
    (e.performAll (List.replicate n .step)).map (·.result) =
        List.replicate n (.ok (.flag false)) ∧
      e.machine.Summed (words.take n) (e.after (List.replicate n .step)).machine := by
  induction n generalizing e words with
  | zero =>
      exact ⟨rfl, .refl e.machine⟩
  | succ n ih =>
      obtain ⟨w, rest, rfl⟩ := List.exists_cons_of_length_pos (Nat.lt_of_lt_of_le n.succ_pos h)
      obtain ⟨first, later⟩ := List.forall_mem_cons.1 adds
      obtain ⟨result, summed⟩ := adds_step ahead first
      have onward := ahead.tail summed.pc_eq summed.memory_eq
      obtain ⟨results, rest_summed⟩ := ih onward later (Nat.le_of_succ_le_succ h)
      refine ⟨?_, ?_⟩
      · rw [List.replicate_succ, List.replicate_succ, performAll, List.map_cons]
        have answered : (e.perform .step).result = .ok (.flag false) := by
          show perform.answered .flag .fault e.step.result = _
          rw [result]
          rfl
        rw [answered]
        exact congrArg _ results
      · rw [List.replicate_succ, after_cons, List.take_succ_cons]
        exact summed.trans rest_summed

/-- The programs of so many words fit, and stand ahead once they are loaded into a new machine. -/
theorem ahead_loaded (e : Engine) {words : List Word} (short : words.length ≤ 1792) :
    (e.reset.loaded (assemble words)).machine.Ahead words where
  fits := by
    show 0x200 + 2 * words.length ≤ 4096
    omega
  slice_eq := by
    rw [← length_assemble]
    exact Memory.slice_writeAll _ _ (by rw [length_assemble]; omega)

theorem slice_glyphs_loaded (e : Engine) {program : List Byte}
    (fits : program.length ≤ Memory.capacity) :
    (e.reset.loaded program).machine.memory.slice 0 Memory.glyphs.length = Memory.glyphs := by
  have room : 0x200 + program.length ≤ 4096 := Nat.add_le_of_le_sub' (by decide) fits
  have kept : (e.reset.loaded program).machine.memory.slice 0 Memory.glyphs.length =
      Memory.blank.slice 0 Memory.glyphs.length := by
    refine List.map_congr_left fun k hk => ?_
    have low : 0 + k < 0x200 :=
      (Nat.zero_add k).symm ▸ Nat.lt_trans (List.mem_range.1 hk) (by decide)
    exact Memory.read_writeAll_of_outside _ room (by omega) (.inl low)
  exact kept.trans (Memory.slice_writeAll _ _ (by decide))

/-- **A program of constants adds them up.** Of at most 1792 words `7xkk`, loaded into a machine
that was reset, every one is executed once. Then each register holds the sum of its bytes modulo
256, the program counter stands behind the last word, and the glyphs and the program are in memory
as before. Each step leaves all registers alone but the one that its word names, also `VF`. -/
theorem immediate_sums (e : Engine) (words : List Word)
    (adds : ∀ w ∈ words, w &&& 0xF000 = 0x7000) (short : words.length ≤ 1792) :
    let program := assemble words
    let run (n : Nat) :=
      Action.reset :: .load (program.map fun b => (b.toNat : Int)) :: List.replicate n .step
    let state (n : Nat) := (e.after (run n)).machine
    let m := state words.length
    (e.performAll (run words.length)).map (·.result) =
      .ok .done :: .ok .done :: List.replicate words.length (.ok (.flag false)) ∧
    (∀ j, (m.v j).toNat = ((words.filter (·.x = j)).map (·.kk.toNat)).sum % 256) ∧
    m.pc = 0x200 + 2 * words.length ∧
    m.memory.slice 0 Memory.glyphs.length = Memory.glyphs ∧
    m.memory.slice 0x200 program.length = program ∧
    ∀ n (h : n < words.length) j, words[n].x ≠ j → (state (n + 1)).v j = (state n).v j := by
  intro program run state m
  have length : program.length = 2 * words.length := length_assemble words
  have fits : program.length ≤ Memory.capacity := by
    rw [length]
    exact Nat.mul_le_mul_left 2 short
  have ahead := e.ahead_loaded short
  have start : (e.reset.perform (.load (program.map fun b => (b.toNat : Int)))).engine =
      e.reset.loaded program := perform_load_toNat e.reset fits
  have reached (n : Nat) (h : n ≤ words.length) :
      (e.reset.loaded program).machine.Summed (words.take n) (state n) := by
    have summed := (adds_after ahead adds h).2
    rw [← start] at summed ⊢
    exact summed
  have final : (e.reset.loaded program).machine.Summed words m := by
    have summed := reached words.length (Nat.le_refl _)
    rwa [List.take_length] at summed
  refine ⟨?_, fun j => ?_, final.pc_eq, ?_, ?_, fun n h j other => ?_⟩
  · have results := (adds_after ahead adds (Nat.le_refl _)).1
    rw [← start] at results
    have placed := perform_load_result e.reset fits
    exact List.cons_eq_cons.2 ⟨rfl, List.cons_eq_cons.2 ⟨placed, results⟩⟩
  · have zero : (e.reset.loaded program).machine.v j = 0#8 := Registers.get_zero j
    rw [final.v_eq, zero, BitVec.zero_add, BitVec.toNat_ofNat]
    rfl
  · rw [final.memory_eq]
    exact e.slice_glyphs_loaded fits
  · rw [final.memory_eq, length]
    exact ahead.slice_eq
  · have before := (reached n (Nat.le_of_lt h)).v_eq j
    have behind := (reached (n + 1) h).v_eq j
    rw [List.take_succ_eq_append_getElem h, addedTo_append, addedTo_singleton, if_neg other,
      Nat.add_zero] at behind
    exact behind.trans before.symm

/-- Words that fill the memory up: all but the last one add 3 to `VF`, the last one 5 to `V2`. -/
def fillingWords : List Word := List.replicate 1791 0x7F03 ++ [0x7205]

theorem length_fillingWords : fillingWords.length = 1792 := by
  rw [fillingWords, List.length_append, List.length_replicate, List.length_singleton]

theorem adds_fillingWords : ∀ w ∈ fillingWords, w &&& 0xF000 = 0x7000 := by
  intro w member
  rcases List.mem_append.1 member with same | last
  · rw [List.eq_of_mem_replicate same]
    decide
  · rw [List.mem_singleton.1 last]
    decide

theorem addedTo_fillingWords (j : Nibble) :
    addedTo j fillingWords =
      (if Word.x 0x7F03 = j then 1791 * 3 else 0) + if Word.x 0x7205 = j then 5 else 0 := by
  rw [fillingWords, addedTo_append, addedTo_replicate, addedTo_singleton]
  rfl

/-- The last word is the last one in memory. `VF` has gone round 20 times. -/
theorem immediate_sums_fillingWords :
    let e := boot {} (.cycle #[]) ⟨.warning, false⟩
    let m := (e.after (.reset :: .load ((assemble fillingWords).map fun b => (b.toNat : Int)) ::
      List.replicate fillingWords.length .step)).machine
    (m.v 15).toNat = 253 ∧ (m.v 2).toNat = 5 ∧ (m.v 0).toNat = 0 ∧ m.pc = 0x1000 ∧
    m.memory.slice 0 Memory.glyphs.length = Memory.glyphs := by
  have length := length_fillingWords
  have adds := adds_fillingWords
  have amount := addedTo_fillingWords
  -- under another name the list is not written out when two states are compared
  generalize fillingWords = words at length adds amount ⊢
  intro e m
  obtain ⟨-, sums, pc, glyphs, -⟩ := immediate_sums e words adds (Nat.le_of_eq length)
  have sum (j : Nibble) : (m.v j).toNat = addedTo j words % 256 := sums j
  have full : 0x200 + 2 * words.length = 0x1000 := by
    rw [length]
  refine ⟨?_, ?_, ?_, pc.trans full, glyphs⟩
  all_goals
    rw [sum, amount]
    decide

end Engine
end ChipEight
