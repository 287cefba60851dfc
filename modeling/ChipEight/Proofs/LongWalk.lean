import ChipEight.Proofs.Effect
import ChipEight.Proofs.Run
import ChipEight.Proofs.Transfer

/-!
# A program that leaves sixteen bits

A program that paves the memory with the byte `22`, all but four bytes, and then walks over it. The
word `2222` calls the subroutine at `222`, which returns at once, so each paved word is two cycles
and two bytes; the word before the subroutine skips it. The program counter is only reduced to
fetch, so it climbs through sixteen turns of the memory until the call at `FFFE` returns to `10000`.

* `Walk`: from any machine with this memory and an empty stack, so many cycles lead from one
  address to another. `Walk.trans` composes walks.
* `walk_paved`: paved memory is walked from the end of the paving loop to `10000`.
* `program`, `after_run`: the program paves the memory and ends up there.
-/

namespace ChipEight

namespace Machine

/-- The machine after so many cycles, failing ones included. -/
def steps (o : Options) : Nat → Machine → Machine
  | 0, m => m
  | n + 1, m => steps o n (m.step o).1

theorem steps_add (o : Options) (n k : Nat) (m : Machine) :
    steps o (n + k) m = steps o k (steps o n m) := by
  induction n generalizing m with
  | zero =>
      rw [Nat.zero_add]
      rfl
  | succ n ih =>
      rw [Nat.succ_add]
      exact ih _

theorem instruction_of_read
    {m : Machine} {hi lo : Byte}
    (hhi : m.memory.read m.pc = hi) (hlo : m.memory.read (m.pc + 1) = lo) :
    m.instruction = .decode (.ofBytes hi lo) := by
  rw [instruction, word, codeAddress, Memory.read_mod, hhi, ← Memory.read_mod,
    Nat.mod_add_mod, Memory.read_mod, hlo]

end Machine

namespace LongWalk

open Machine

/-- Where a machine stands: its memory, its program counter and its stack. -/
structure At (memory : Memory) (pc : Nat) (stack : List Word) (m : Machine) : Prop where
  memory_eq : m.memory = memory
  pc_eq : m.pc = pc
  stack_eq : m.stack = stack

variable {o : Options} {memory : Memory} {pc : Nat} {stack : List Word} {m : Machine}

theorem At.count (h : At memory pc stack m) : At memory pc stack m.count :=
  ⟨h.memory_eq, h.pc_eq, h.stack_eq⟩

theorem At.age (h : At memory pc stack m) : At memory pc stack m.age := by
  unfold Machine.age
  exact ⟨h.memory_eq, h.pc_eq, h.stack_eq⟩

theorem At.instruction_eq (h : At memory pc stack m) {hi lo : Byte}
    (hhi : memory.read pc = hi) (hlo : memory.read (pc + 1) = lo) :
    m.instruction = .decode (.ofBytes hi lo) := by
  refine instruction_of_read ?_ ?_
  · rw [h.memory_eq, h.pc_eq, hhi]
  · rw [h.memory_eq, h.pc_eq, hlo]

theorem At.step_call (h : At memory pc [] m) {target : Address}
    (hcall : m.instruction = .call target) (storable : pc ≤ 65535) :
    At memory target.toNat [BitVec.ofNat 16 pc] (m.step o).1 := by
  have empty : m.count.sp = 0 := m.count.stack_eq_nil_iff.1 h.count.stack_eq
  have room : m.count.sp < stackDepth := by
    rw [empty]
    decide
  rw [step_of_execute hcall (enter_of_room room (h.count.pc_eq ▸ storable) target)]
  refine At.age ⟨h.memory_eq, rfl, (stack_push room _).trans ?_⟩
  rw [h.count.pc_eq, h.count.stack_eq]

theorem At.step_ret {caller : Word} (h : At memory pc [caller] m)
    (hret : m.instruction = .ret) :
    At memory (caller.toNat + 2) [] (m.step o).1 := by
  have top := h.count.stack_eq
  rw [step_of_execute hret (leave_of_stack top)]
  exact At.age ⟨h.memory_eq, rfl, (eq_slot_cons_of_stack top).2.symm⟩

theorem At.step_skip (h : At memory pc stack m) {x : Nibble}
    (hskip : m.instruction = .skipIfSame x x) (low : pc + 4 < 65536) :
    At memory (pc + 4) stack (m.step o).1 := by
  have hrun : m.count.execute o (.skipIfSame x x) =
      .ok () (m.count.skipIf (m.count.v x == m.count.v x)) := rfl
  -- a register equals itself, so the skip is taken whatever it holds
  rw [beq_self_eq_true, skipIf, h.count.pc_eq, if_pos rfl, Nat.mod_eq_of_lt low] at hrun
  rw [step_of_execute hskip hrun]
  exact At.age ⟨h.memory_eq, rfl, h.stack_eq⟩

/-- From every machine at `pc` with an empty stack, `n` cycles lead to `pc'`. -/
def Walk (o : Options) (memory : Memory) (pc n pc' : Nat) : Prop :=
  ∀ m, At memory pc [] m → At memory pc' [] (steps o n m)

theorem Walk.trans {p q r n k : Nat}
    (first : Walk o memory p n q) (second : Walk o memory q k r) :
    Walk o memory p (n + k) r := by
  intro m h
  rw [steps_add]
  exact second _ (first m h)

theorem Walk.of_eq {p q q' n n' : Nat}
    (h : Walk o memory p n q) (hn : n = n') (hq : q = q') :
    Walk o memory p n' q' := by
  rw [← hn, ← hq]
  exact h

/-- Memory that holds the byte `22` everywhere but in the subroutine and the skip before it. -/
structure Paved (memory : Memory) : Prop where
  stone : ∀ a, a % 4096 < 0x220 ∨ 0x224 ≤ a % 4096 → memory.read a = 0x22
  skip_high : memory.read 0x220 = 0x50
  skip_low : memory.read 0x221 = 0x00
  ret_high : memory.read 0x222 = 0x00
  ret_low : memory.read 0x223 = 0xEE

theorem decode_stone : Instruction.decode (.ofBytes 0x22 0x22) = .call 0x222 := by
  decide

theorem walk_stone (paved : Paved memory) (pc : Nat)
    (storable : pc ≤ 65535) (even : pc % 2 = 0) (off : pc % 4096 ≠ 0x220 ∧ pc % 4096 ≠ 0x222) :
    Walk o memory pc 2 (pc + 2) := by
  intro m h
  have hcall : m.instruction = .call 0x222 := by
    rw [h.instruction_eq (paved.stone pc (by omega)) (paved.stone (pc + 1) (by omega)),
      decode_stone]
  have entered := h.step_call (o := o) hcall storable
  have hret : (m.step o).1.instruction = .ret := by
    rw [entered.instruction_eq paved.ret_high paved.ret_low]
    decide
  have left := entered.step_ret (o := o) hret
  rw [toNat_returnAddress storable] at left
  exact left

theorem walk_skip (paved : Paved memory) (pc : Nat)
    (low : pc + 4 < 65536) (gate : pc % 4096 = 0x220) :
    Walk o memory pc 1 (pc + 4) := by
  intro m h
  have hskip : m.instruction = .skipIfSame 0 0 := by
    have high := memory.read_eq_of_mod_eq (a := pc) (b := 0x220) gate
    have low := memory.read_eq_of_mod_eq (a := pc + 1) (b := 0x221) (by omega)
    rw [h.instruction_eq (high.trans paved.skip_high) (low.trans paved.skip_low)]
    decide
  exact h.step_skip hskip low

theorem walk_stones (paved : Paved memory) (pc : Nat) (even : pc % 2 = 0) (n : Nat)
    (storable : pc + 2 * n ≤ 65536)
    (off : ∀ k, k < n → (pc + 2 * k) % 4096 ≠ 0x220 ∧ (pc + 2 * k) % 4096 ≠ 0x222) :
    Walk o memory pc (2 * n) (pc + 2 * n) := by
  induction n with
  | zero =>
      exact fun _ h => h
  | succ n ih =>
      have before := ih (by omega) fun k hk => off k (by omega)
      have last := walk_stone (o := o) paved _ (by omega) (by omega) (off n (by omega))
      exact before.trans last

theorem walk_turn (paved : Paved memory) (turn : Nat) (h : turn < 15) :
    Walk o memory (0x224 + 4096 * turn) 4093 (0x224 + 4096 * (turn + 1)) := by
  have stones := walk_stones (o := o) paved (0x224 + 4096 * turn) (by omega) 2046
    (by omega) fun k hk => by omega
  have skip := walk_skip (o := o) paved (0x224 + 4096 * turn + 2 * 2046)
    (by omega) (by omega)
  exact (stones.trans skip).of_eq rfl (by omega)

theorem walk_turns (paved : Paved memory) (turns : Nat) (h : turns ≤ 15) :
    Walk o memory 0x224 (4093 * turns) (0x224 + 4096 * turns) := by
  induction turns with
  | zero =>
      exact fun _ h => h
  | succ turns ih =>
      exact (ih (by omega)).trans (walk_turn paved turns (by omega))

/-- The whole walk, from the end of the paving loop to the first address above sixteen bits. -/
theorem walk_paved (paved : Paved memory) : Walk o memory 0x20A 64966 65536 := by
  have start := walk_stones (o := o) paved 0x20A (by omega) 11 (by omega)
    fun k hk => by omega
  have skip := walk_skip (o := o) paved (0x20A + 2 * 11) (by omega) (by omega)
  have turns := walk_turns (o := o) paved 15 (Nat.le_refl _)
  have last := walk_stones (o := o) paved (0x224 + 4096 * 15) (by omega) 1774 (by omega)
    fun k hk => by omega
  exact (((start.trans skip).trans turns).trans last).of_eq rfl rfl

/-- Load the paving byte into eight registers, and pave eight bytes at a time from address zero. -/
def pavingLoop : List Byte :=
  [0xA2, 0x24, 0xF7, 0x65, 0x68, 0x08, 0xA0, 0x00, 0xF7, 0x55, 0xF8, 0x1E, 0x12, 0x08]

/-- The skip and the subroutine behind it. -/
def gate : List Byte := [0x50, 0x00, 0x00, 0xEE]

/-- The loop, and stones around the gate up to the end of the memory. -/
def program : List Byte :=
  pavingLoop ++ (List.replicate 18 0x22 ++ (gate ++ List.replicate 3548 0x22))

theorem length_program : program.length = 3584 := by
  simp only [program, pavingLoop, gate, List.length_append, List.length_replicate,
    List.length_cons, List.length_nil]

theorem program_stone {k : Nat} (hk : k < program.length)
    (behind : 14 ≤ k) (off : k < 32 ∨ 36 ≤ k) :
    program[k] = 0x22 := by
  have hloop : pavingLoop.length = 14 := rfl
  have hgate : gate.length = 4 := rfl
  simp only [program]
  rw [List.getElem_append_right (by omega)]
  by_cases near : k < 32
  · rw [List.getElem_append_left (by rw [List.length_replicate]; omega), List.getElem_replicate]
  · rw [List.getElem_append_right (by rw [List.length_replicate]; omega),
      List.getElem_append_right (by rw [List.length_replicate]; omega), List.getElem_replicate]

/-- The memory that the program is placed in, paved up to `8 * blocks`. -/
@[irreducible] def ground (blocks : Nat) : Memory :=
  (Memory.blank.writeAll 0x200 program).writeAll 0 (List.replicate (8 * blocks) 0x22)

theorem ground_zero : ground 0 = Memory.blank.writeAll Memory.programStart program := by
  rw [ground, Nat.mul_zero, List.replicate_zero, Memory.writeAll, Memory.programStart]

theorem ground_succ (blocks : Nat) :
    (ground blocks).writeAll (8 * blocks) (List.replicate 8 0x22) = ground (blocks + 1) := by
  rw [ground, ground, Nat.mul_succ, ← List.replicate_append_replicate, Memory.writeAll_append,
    List.length_replicate, Nat.zero_add]

theorem read_ground (blocks : Nat) {k : Nat} (hk : k < program.length)
    (unpaved : 8 * blocks ≤ 0x200 + k) :
    (ground blocks).read (0x200 + k) = program[k] := by
  have hlength := length_program
  rw [ground, Memory.read_writeAll_of_forall_ne]
  · exact Memory.read_writeAll program (by omega) _ _ hk
  · intro j hj
    rw [List.length_replicate] at hj
    omega

theorem read_ground_paved {blocks : Nat} (fits : blocks ≤ 512) {a : Nat} (ha : a < 8 * blocks) :
    (ground blocks).read a = 0x22 := by
  have hlength : (List.replicate (8 * blocks) (0x22 : Byte)).length = 8 * blocks :=
    List.length_replicate
  have hread := Memory.read_writeAll (List.replicate (8 * blocks) 0x22) (by omega)
    (Memory.blank.writeAll 0x200 program) 0 (k := a) (by omega)
  rw [List.getElem_replicate, Nat.zero_add] at hread
  rw [ground]
  exact hread

/-- Once the loop has paved itself, all the memory is paved. -/
theorem paved_ground : Paved (ground 66) := by
  have hlength := length_program
  have unpaved (k : Nat) (hk : k < program.length) (behind : 16 ≤ k) :
      (ground 66).read (0x200 + k) = program[k] :=
    read_ground 66 hk (by omega)
  constructor
  case stone =>
    intro a off
    rw [← Memory.read_mod]
    by_cases near : a % 4096 < 528
    · exact read_ground_paved (by omega) near
    · obtain ⟨k, hk⟩ : ∃ k, a % 4096 = 0x200 + k := ⟨a % 4096 - 0x200, by omega⟩
      rw [hk, unpaved k (by omega) (by omega)]
      exact program_stone _ (by omega) (by omega)
  case skip_high => exact (unpaved 32 (by omega) (by omega)).trans rfl
  case skip_low => exact (unpaved 33 (by omega) (by omega)).trans rfl
  case ret_high => exact (unpaved 34 (by omega) (by omega)).trans rfl
  case ret_low => exact (unpaved 35 (by omega) (by omega)).trans rfl

theorem At.instruction_program {blocks k : Nat} {hi lo : Byte} {i : Instruction}
    (h : At (ground blocks) (0x200 + k) [] m)
    (hhi : program[k]? = some hi) (hlo : program[k + 1]? = some lo)
    (hdecode : Instruction.decode (.ofBytes hi lo) = i)
    (unpaved : 8 * blocks ≤ 0x200 + k) :
    m.instruction = i := by
  obtain ⟨hk, rfl⟩ := List.getElem?_eq_some_iff.1 hhi
  obtain ⟨hk', rfl⟩ := List.getElem?_eq_some_iff.1 hlo
  rw [← hdecode]
  exact h.instruction_eq (read_ground blocks hk unpaved) (read_ground blocks hk' (by omega))

theorem At.next (h : At memory pc stack m) (low : pc + 2 < 65536) :
    At memory (pc + 2) stack m.next := by
  refine ⟨h.memory_eq, ?_, h.stack_eq⟩
  rw [Machine.next, h.pc_eq]
  exact Nat.mod_eq_of_lt low

theorem At.step_next {done : Machine} {i : Instruction} (kept : At memory pc stack done)
    (low : pc + 2 < 65536)
    (hi : m.instruction = i) (hrun : m.count.execute o i = .ok () done.next) :
    At memory (pc + 2) stack (m.step o).1 ∧ (m.step o).1.index = done.index ∧
      ∀ x, (m.step o).1.v x = done.v x := by
  rw [step_of_execute hi hrun]
  exact ⟨(kept.next low).age, rfl, fun x => v_age _ x⟩

/-- The machine at the head of the loop, with so many blocks paved. -/
structure Paving (blocks : Nat) (m : Machine) : Prop where
  here : At (ground blocks) 0x208 [] m
  index_eq : m.index = 8 * blocks
  stones : ∀ x : Nibble, x.val < 8 → m.v x = 0x22
  stride : m.v 8 = 8

theorem Paving.upTo_eq {blocks : Nat} (h : Paving blocks m) :
    m.registers.upTo 7 = List.replicate 8 0x22 := by
  rw [List.eq_replicate_iff]
  constructor
  · rw [Registers.upTo, List.length_take, Vector.length_toList]
    rfl
  · intro b hb
    obtain ⟨i, hi, rfl⟩ := List.mem_take_iff_getElem.1 hb
    have small : i < 8 := Nat.lt_of_lt_of_le hi (Nat.min_le_left _ _)
    exact h.stones ⟨i, by omega⟩ small

theorem Paving.store {blocks : Nat} (h : Paving blocks m) (hblocks : blocks ≤ 65) :
    At (ground (blocks + 1)) 0x20A [] (m.step o).1 ∧ (m.step o).1.index = 8 * blocks ∧
      ∀ x, (m.step o).1.v x = m.v x := by
  have hstore : m.instruction = .storeRegisters 7 :=
    h.here.instruction_program (k := 8) rfl rfl (by decide) (by omega)
  have paved : At (ground (blocks + 1)) 0x208 [] (m.count.storeAtIndex (m.registers.upTo 7)) := by
    refine ⟨?_, h.here.pc_eq, h.here.stack_eq⟩
    show m.memory.writeAll m.index (m.registers.upTo 7) = _
    rw [h.here.memory_eq, h.index_eq, h.upTo_eq, ground_succ]
  obtain ⟨here, index, kept⟩ := paved.step_next (o := o) (by omega) hstore rfl
  exact ⟨here, index.trans h.index_eq, kept⟩

theorem step_addIndex {blocks : Nat} (h : At (ground blocks) 0x20A [] m) (hblocks : blocks ≤ 65)
    (room : m.index + (m.v 8).toNat < 65536) :
    At (ground blocks) 0x20C [] (m.step o).1 ∧
      (m.step o).1.index = m.index + (m.v 8).toNat ∧
      ∀ x : Nibble, x ≠ Registers.flag → (m.step o).1.v x = m.v x := by
  have hadd : m.instruction = .addIndex 8 :=
    h.instruction_program (k := 10) rfl rfl (by decide) (by omega)
  have added : At (ground blocks) 0x20A []
      ({ m.count with index := (m.index + (m.v 8).toNat) % 65536 }.setFlag
        (4095 < m.index + (m.v 8).toNat)) :=
    ⟨h.memory_eq, h.pc_eq, h.stack_eq⟩
  obtain ⟨here, index, kept⟩ := added.step_next (o := o) (by omega) hadd rfl
  refine ⟨here, index.trans (Nat.mod_eq_of_lt room), fun x hx => ?_⟩
  rw [kept]
  exact (v_setV _ _ _ _).trans (if_neg hx.symm)

theorem step_jump {blocks : Nat} (h : At (ground blocks) 0x20C [] m) (hblocks : blocks ≤ 65) :
    At (ground blocks) 0x208 [] (m.step o).1 ∧ (m.step o).1.index = m.index ∧
      ∀ x, (m.step o).1.v x = m.v x := by
  have hjump : m.instruction = .jump 0x208 :=
    h.instruction_program (k := 12) rfl rfl (by decide) (by omega)
  have hstep : (m.step o).1 = { m.count with pc := 0x208 }.age :=
    congrArg Prod.fst (step_of_execute hjump rfl)
  rw [hstep]
  exact ⟨At.age ⟨h.memory_eq, rfl, h.stack_eq⟩, rfl, fun x => v_age _ x⟩

theorem Paving.round {blocks : Nat} (h : Paving blocks m) (hblocks : blocks < 65) :
    Paving (blocks + 1) (steps o 3 m) := by
  obtain ⟨stored, storedIndex, storedV⟩ := h.store (o := o) (by omega)
  have stride : ((m.step o).1.v 8).toNat = 8 := by
    rw [storedV, h.stride]
    rfl
  obtain ⟨added, addedIndex, addedV⟩ := step_addIndex (o := o) stored (by omega) (by omega)
  obtain ⟨jumped, jumpedIndex, jumpedV⟩ := step_jump (o := o) added (by omega)
  refine ⟨jumped, ?_, fun x hx => ?_, ?_⟩
  · show ((((m.step o).1.step o).1.step o).1).index = _
    omega
  · have hflag : x ≠ Registers.flag := by
      rintro rfl
      exact absurd hx (by decide)
    exact (jumpedV x).trans ((addedV x hflag).trans ((storedV x).trans (h.stones x hx)))
  · exact (jumpedV 8).trans ((addedV 8 (by decide)).trans ((storedV 8).trans h.stride))

theorem Paving.rounds {blocks : Nat} (h : Paving 0 m) (hblocks : blocks ≤ 65) :
    Paving blocks (steps o (3 * blocks) m) := by
  induction blocks with
  | zero =>
      exact h
  | succ blocks ih =>
      rw [Nat.mul_succ, steps_add]
      exact (ih (by omega)).round (by omega)

theorem At.step_loadIndex (h : At memory pc stack m) {target : Address}
    (hload : m.instruction = .loadIndex target) (low : pc + 2 < 65536) :
    At memory (pc + 2) stack (m.step o).1 ∧ (m.step o).1.index = target.toNat ∧
      ∀ x, (m.step o).1.v x = m.v x := by
  have pointed : At memory pc stack { m.count with index := target.toNat } :=
    ⟨h.memory_eq, h.pc_eq, h.stack_eq⟩
  exact pointed.step_next low hload rfl

theorem step_loadRegisters (h : At (ground 0) 0x202 [] m) (hindex : m.index = 0x224) :
    At (ground 0) 0x204 [] (m.step o).1 ∧
      ∀ x : Nibble, x.val < 8 → (m.step o).1.v x = 0x22 := by
  have hload : m.instruction = .loadRegisters 7 :=
    h.instruction_program (k := 2) rfl rfl (by decide) (by omega)
  have loaded : At (ground 0) 0x202 []
      { m.count with registers := .ofFn fun j =>
          if j ≤ 7 then m.memory.read (m.index + j.val) else m.v j } :=
    ⟨h.memory_eq, h.pc_eq, h.stack_eq⟩
  obtain ⟨here, -, kept⟩ := loaded.step_next (o := o) (by omega) hload rfl
  refine ⟨here, fun x hx => ?_⟩
  rw [kept]
  refine (Registers.get_ofFn _ x).trans ?_
  have hlength := length_program
  have hle : x ≤ 7 := Nat.le_of_lt_succ hx
  rw [if_pos hle, h.memory_eq, hindex, show 0x224 + x.val = 0x200 + (36 + x.val) by omega,
    read_ground 0 (k := 36 + x.val) (by omega) (by omega)]
  exact program_stone _ (by omega) (by omega)

theorem step_loadStride (h : At (ground 0) 0x204 [] m) :
    At (ground 0) 0x206 [] (m.step o).1 ∧ (m.step o).1.v 8 = 8 ∧
      ∀ x : Nibble, x ≠ 8 → (m.step o).1.v x = m.v x := by
  have hload : m.instruction = .loadByte 8 8 :=
    h.instruction_program (k := 4) rfl rfl (by decide) (by omega)
  have loaded : At (ground 0) 0x204 [] (m.count.setV 8 8) :=
    ⟨h.memory_eq, h.pc_eq, h.stack_eq⟩
  obtain ⟨here, -, kept⟩ := loaded.step_next (o := o) (by omega) hload rfl
  refine ⟨here, ?_, fun x hx => ?_⟩
  · rw [kept]
    exact (v_setV _ _ _ _).trans (if_pos rfl)
  · rw [kept]
    exact (v_setV _ _ _ _).trans (if_neg hx.symm)

theorem paving_start (h : At (ground 0) 0x200 [] m) : Paving 0 (steps o 4 m) := by
  have hload : m.instruction = .loadIndex 0x224 :=
    h.instruction_program (k := 0) rfl rfl (by decide) (by omega)
  obtain ⟨pointed, index, -⟩ := h.step_loadIndex (o := o) hload (by omega)
  obtain ⟨loaded, stones⟩ := step_loadRegisters (o := o) pointed index
  obtain ⟨strided, stride, others⟩ := step_loadStride (o := o) loaded
  have hrewind : (((m.step o).1.step o).1.step o).1.instruction = .loadIndex 0 :=
    strided.instruction_program (k := 6) rfl rfl (by decide) (by omega)
  obtain ⟨here, index, kept⟩ := strided.step_loadIndex (o := o) hrewind (by omega)
  refine ⟨here, index, fun x hx => ?_, (kept 8).trans stride⟩
  have hne : x ≠ 8 := by
    rintro rfl
    exact absurd hx (by decide)
  exact (kept x).trans ((others x hne).trans (stones x hx))

theorem walk_program (h : At (ground 0) 0x200 [] m) :
    At (ground 66) 65536 [] (steps o 65166 m) := by
  have paving : Paving 65 (steps o (4 + 3 * 65) m) := by
    rw [steps_add]
    exact (paving_start h).rounds (Nat.le_refl _)
  -- the last store covers the loop, which then goes on as a paved word
  obtain ⟨stored, -, -⟩ := paving.store (o := o) (Nat.le_refl _)
  have walked := walk_paved (o := o) paved_ground _ stored
  rw [show 65166 = 4 + 3 * 65 + (1 + 64966) by omega, steps_add, steps_add o 1]
  exact walked

theorem after_replicate_step (e : Engine) (n : Nat) :
    (e.after (List.replicate n .step)).machine = steps e.options n e.machine := by
  induction n generalizing e with
  | zero =>
      rfl
  | succ n ih =>
      rw [List.replicate_succ, Engine.after_cons]
      exact ih e.step.engine

/-- A run of a new engine: the program is loaded and stepped up to the call at `10000`. -/
def run : List Action :=
  .load (program.map fun b => (b.toNat : Int)) :: List.replicate 65166 .step

theorem after_run (options : Options) (random : RandomBytes) (log : Log) :
    At (ground 66) 65536 [] ((Engine.boot options random log).after run).machine := by
  have fits : program.length ≤ Memory.capacity := Nat.le_of_eq length_program
  rw [run, Engine.after_cons, Engine.perform_load_toNat _ fits, after_replicate_step]
  have blank : (Engine.boot options random log).machine.memory = Memory.blank := rfl
  have start : At (ground 0) 0x200 [] { Machine.boot random with memory := ground 0 } :=
    ⟨rfl, rfl, rfl⟩
  rw [blank, ← ground_zero]
  exact walk_program start

end LongWalk
end ChipEight
