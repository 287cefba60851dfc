import ChipEight.Proofs.Decoding
import ChipEight.Proofs.Run
import ChipEight.Proofs.Effect
import ChipEight.Proofs.Transfer

/-!
# Registers to memory and back

`Fx55` stores the registers up to `Vx` from the index on, `Fx65` loads them from there, and `Fx33`
stores the decimal digits of one register. Addresses go on at zero after the last one, and as a
transfer is shorter than the memory no two of its bytes meet.

* `Engine.Stores`: a step has stored bytes from the index on and changed nothing else in memory;
  `Engine.stores_of_execute` says so of every instruction that stores.
* `Engine.step_loadRegisters`: what a step makes of a machine that loads registers.
* `Engine.loadRegisters_after_store`, `Engine.storeRegisters_after_load`: the two undo each other.
* `Engine.transfers_round_trip`: what the three instructions transfer, and the round trips.
-/

namespace ChipEight

namespace Machine

/-- The digits of a byte make up its number. -/
theorem digitsOf_eq (b : Byte) :
    ∃ h t u : Byte, digitsOf b = [h, t, u] ∧ (h.toNat ≤ 9 ∧ t.toNat ≤ 9 ∧ u.toNat ≤ 9) ∧
      100 * h.toNat + 10 * t.toNat + u.toNat = b.toNat := by
  have := b.isLt
  refine ⟨_, _, _, rfl, ?_⟩
  simp only [BitVec.toNat_ofNat]
  omega

end Machine

namespace Engine

/-- A step succeeds, stores the bytes from the index on and changes nothing else in memory. -/
structure Stores (e : Engine) (bytes : List Byte) : Prop where
  completes : e.step.result = .ok false
  index_eq : e.step.engine.machine.index = e.machine.index
  memory_eq : e.step.engine.machine.memory = e.machine.memory.writeAll e.machine.index bytes

namespace Stores

variable {e : Engine} {bytes : List Byte}

theorem read_eq (h : e.Stores bytes) (short : bytes.length ≤ 4096) {k : Nat}
    (hk : k < bytes.length) :
    e.step.engine.machine.memory.read ((e.machine.index + k) % 4096) = bytes[k] := by
  rw [Memory.read_mod, h.memory_eq, Memory.read_writeAll bytes short _ _ hk]

theorem read_eq_of_ne (h : e.Stores bytes) {a : Nat} (ha : a < 4096)
    (outside : ∀ k, k < bytes.length → a ≠ (e.machine.index + k) % 4096) :
    e.step.engine.machine.memory.read a = e.machine.memory.read a := by
  rw [h.memory_eq]
  refine Memory.read_writeAll_of_forall_ne bytes _ _ a fun k hk here => outside k hk ?_
  rw [here, Nat.mod_eq_of_lt ha]

end Stores

theorem stores_of_execute {e : Engine} {i : Instruction} {bytes : List Byte}
    (fetched : e.machine.instruction = i)
    (hrun : e.machine.count.execute e.options i =
      .ok () (e.machine.count.storeAtIndex bytes).next)
    (silent : i.paints = false) : e.Stores bytes := by
  have hstep := Machine.step_of_execute fetched hrun
  refine ⟨?_, ?_, ?_⟩
  · rw [step_result, hstep, silent]
  · rw [step_engine, hstep, Machine.index_age]
    rfl
  · rw [step_engine, hstep, Machine.memory_age]
    rfl

/-- What a step makes of a machine that loads registers. -/
theorem step_loadRegisters {e : Engine} {x : Nibble}
    (fetched : e.machine.instruction = .loadRegisters x) :
    e.step.result = .ok false ∧ e.step.engine.machine.index = e.machine.index ∧
    e.step.engine.machine.memory = e.machine.memory ∧
    ∀ j, e.step.engine.machine.v j =
      if j ≤ x then e.machine.memory.read (e.machine.index + j.val) else e.machine.v j := by
  obtain ⟨registers, loaded, hstep⟩ : ∃ registers : Registers,
      (∀ j, registers.get j =
        if j ≤ x then e.machine.memory.read (e.machine.index + j.val) else e.machine.v j) ∧
      e.machine.step e.options = ({ e.machine.count with registers }.next.age, .ok false) :=
    ⟨_, Registers.get_ofFn _, Machine.step_of_execute fetched rfl⟩
  refine ⟨congrArg Prod.snd hstep, ?_, ?_, fun j => ?_⟩
  · rw [step_engine, hstep, Machine.index_age]
    rfl
  · rw [step_engine, hstep, Machine.memory_age]
    rfl
  · rw [step_engine, hstep]
    exact (Machine.v_age _ j).trans (loaded j)

section Registers

variable {e : Engine} {x : Nibble}

theorem stores_registers (fetched : e.machine.instruction = .storeRegisters x) :
    e.Stores (e.machine.registers.upTo x) :=
  stores_of_execute fetched rfl rfl

/-- The stored registers are read back where they were stored. -/
theorem read_storeRegisters (fetched : e.machine.instruction = .storeRegisters x) {j : Nibble}
    (hj : j ≤ x) :
    e.step.engine.machine.memory.read ((e.machine.index + j.val) % 4096) = e.machine.v j := by
  have short : (e.machine.registers.upTo x).length ≤ 4096 := by
    have := x.isLt
    rw [Registers.length_upTo]
    omega
  have within := e.machine.registers.lt_length_upTo_iff.2 ⟨j, hj, rfl⟩
  rw [(stores_registers fetched).read_eq short within, Registers.getElem_upTo]
  rfl

/-- Loading restores the registers that were stored, if the index and their bytes are as before. -/
theorem loadRegisters_after_store {later : Engine}
    (stores : e.machine.instruction = .storeRegisters x)
    (loads : later.machine.instruction = .loadRegisters x)
    (index : later.machine.index = e.machine.index)
    (kept : ∀ j, j ≤ x → later.machine.memory.read ((e.machine.index + j.val) % 4096) =
      e.step.engine.machine.memory.read ((e.machine.index + j.val) % 4096)) :
    later.step.result = .ok false ∧
      ∀ j, j ≤ x → later.step.engine.machine.v j = e.machine.v j := by
  obtain ⟨completes, -, -, registers⟩ := step_loadRegisters loads
  refine ⟨completes, fun j hj => ?_⟩
  have restored := (kept j hj).trans (read_storeRegisters stores hj)
  rw [registers, if_pos hj, index, ← restored, Memory.read_mod]

/-- Storing the registers that were just loaded changes nothing. -/
theorem storeRegisters_after_load (loads : e.machine.instruction = .loadRegisters x)
    (stores : e.step.engine.machine.instruction = .storeRegisters x) :
    e.step.engine.step.engine.machine.memory = e.machine.memory := by
  obtain ⟨-, index, memory, registers⟩ := step_loadRegisters loads
  rw [(stores_registers stores).memory_eq, memory, index]
  refine Memory.writeAll_eq_self _ _ _ fun k hk => ?_
  obtain ⟨j, hj, rfl⟩ := (Registers.lt_length_upTo_iff _).1 hk
  have loaded := registers j
  rw [if_pos hj] at loaded
  rw [← loaded]
  exact Registers.getElem_upTo _ x j hk

end Registers

/-- Three digits of a register are stored. -/
theorem stores_digits {e : Engine} {x : Nibble} (fetched : e.machine.instruction = .storeDigits x) :
    ∃ h t u : Byte, e.Stores [h, t, u] ∧ (h.toNat ≤ 9 ∧ t.toNat ≤ 9 ∧ u.toNat ≤ 9) ∧
      100 * h.toNat + 10 * t.toNat + u.toNat = (e.machine.v x).toNat := by
  obtain ⟨h, t, u, digits, bounds, number⟩ := Machine.digitsOf_eq (e.machine.v x)
  refine ⟨h, t, u, ?_, bounds, number⟩
  rw [← digits]
  exact stores_of_execute fetched rfl rfl

/-- **Registers to memory and back.** `Fx55` puts the registers up to `Vx` where the index points and
changes no other byte, and `Fx65`, whenever it finds the index and those bytes as they were left,
restores them, whatever the registers have become. `Fx65` loads the bytes where the index points, and
`Fx55` right after it changes nothing in memory. `Fx33` puts three decimal digits of `Vx` there. The
index stays, and addresses are taken modulo 4096. -/
theorem transfers_round_trip (e : Engine) :
    let m := e.machine
    let m' := e.step.engine.machine
    let w := m.word
    (w &&& 0xF0FF = 0xF055 →
      e.step.result = .ok false ∧ m'.index = m.index ∧
      (∀ j, j ≤ w.x → m'.memory.read ((m.index + j.val) % 4096) = m.v j) ∧
      (∀ a, a < 4096 → (∀ j, j ≤ w.x → a ≠ (m.index + j.val) % 4096) →
        m'.memory.read a = m.memory.read a) ∧
      ∀ later : Engine, later.machine.word &&& 0xF0FF = 0xF065 → later.machine.word.x = w.x →
        later.machine.index = m.index →
        (∀ j, j ≤ w.x → later.machine.memory.read ((m.index + j.val) % 4096) =
          m'.memory.read ((m.index + j.val) % 4096)) →
        later.step.result = .ok false ∧ ∀ j, j ≤ w.x → later.step.engine.machine.v j = m.v j) ∧
    (w &&& 0xF0FF = 0xF065 →
      e.step.result = .ok false ∧ m'.index = m.index ∧ m'.memory = m.memory ∧
      (∀ j, m'.v j = if j ≤ w.x then m.memory.read ((m.index + j.val) % 4096) else m.v j) ∧
      (m'.word &&& 0xF0FF = 0xF055 → m'.word.x = w.x →
        e.step.engine.step.result = .ok false ∧
        e.step.engine.step.engine.machine.index = m.index ∧
        e.step.engine.step.engine.machine.memory = m.memory)) ∧
    (w &&& 0xF0FF = 0xF033 →
      e.step.result = .ok false ∧ m'.index = m.index ∧
      (∃ h t u : Byte, (h.toNat ≤ 9 ∧ t.toNat ≤ 9 ∧ u.toNat ≤ 9) ∧
        100 * h.toNat + 10 * t.toNat + u.toNat = (m.v w.x).toNat ∧
        m'.memory.read (m.index % 4096) = h ∧ m'.memory.read ((m.index + 1) % 4096) = t ∧
        m'.memory.read ((m.index + 2) % 4096) = u) ∧
      ∀ a, a < 4096 → (∀ k, k < 3 → a ≠ (m.index + k) % 4096) →
        m'.memory.read a = m.memory.read a) := by
  intro m m' w
  refine ⟨fun hw => ?_, fun hw => ?_, fun hw => ?_⟩
  · have fetched : m.instruction = .storeRegisters w.x :=
      Instruction.decode_withX (by simp [Instruction.table]) hw
    have stores := stores_registers fetched
    refine ⟨stores.completes, stores.index_eq, fun j => read_storeRegisters fetched,
      fun a ha outside => ?_, fun later loads same index kept => ?_⟩
    · refine stores.read_eq_of_ne ha fun k hk => ?_
      obtain ⟨j, hj, rfl⟩ := (Registers.lt_length_upTo_iff _).1 hk
      exact outside j hj
    · have fetched' : later.machine.instruction = .loadRegisters w.x := by
        rw [← same]
        exact Instruction.decode_withX (by simp [Instruction.table]) loads
      exact loadRegisters_after_store fetched fetched' index kept
  · have fetched : m.instruction = .loadRegisters w.x :=
      Instruction.decode_withX (by simp [Instruction.table]) hw
    obtain ⟨completes, index, memory, registers⟩ := step_loadRegisters fetched
    refine ⟨completes, index, memory, fun j => ?_, fun hw' same => ?_⟩
    · rw [registers, Memory.read_mod]
    · have fetched' : m'.instruction = .storeRegisters w.x := by
        rw [← same]
        exact Instruction.decode_withX (by simp [Instruction.table]) hw'
      have stores := stores_registers fetched'
      exact ⟨stores.completes, stores.index_eq.trans index,
        storeRegisters_after_load fetched fetched'⟩
  · have fetched : m.instruction = .storeDigits w.x :=
      Instruction.decode_withX (by simp [Instruction.table]) hw
    obtain ⟨h, t, u, stores, bounds, number⟩ := stores_digits fetched
    have short : [h, t, u].length ≤ 4096 := by simp
    refine ⟨stores.completes, stores.index_eq, ⟨h, t, u, bounds, number, ?_, ?_, ?_⟩,
      fun a ha => stores.read_eq_of_ne ha⟩
    · exact stores.read_eq short (k := 0) (by simp)
    · exact stores.read_eq short (k := 1) (by simp)
    · exact stores.read_eq short (k := 2) (by simp)

/-- An engine at two words, with sixteen times its number in each register and the index above the
last address. -/
def mover (first second : Word) : Engine where
  machine :=
    { memory := .writeAll .blank 0x200
        [first.toBytes.1, first.toBytes.2, second.toBytes.1, second.toBytes.2]
      registers := .ofFn fun j => .ofNat 8 (16 * j.val)
      index := 0xFFFE
      random := .cycle #[] }
  log := ⟨.error, false⟩

theorem word_mover (first second : Word) : (mover first second).machine.word = first :=
  Machine.word_of_writeAll rfl (by simp)

/-- The engine with all registers zero. -/
def blanked (e : Engine) : Engine := { e with machine := { e.machine with registers := .zero } }

theorem memory_blanked (e : Engine) : e.blanked.machine.memory = e.machine.memory :=
  rfl

/-- Two bytes before the end of memory four registers are stored and then loaded by an engine that
has lost them, or loaded and stored, or the digits of 48 are stored. -/
theorem transfers_round_trip_mover :
    let stored := (mover 0xF355 0xF365).step.engine
    let spelled := (mover 0xF333 0).step.engine
    (stored.machine.memory.read 1 = 0x30 ∧ stored.blanked.step.engine.machine.v 3 = 0x30) ∧
    (mover 0xF365 0xF355).step.engine.step.engine.machine.memory =
      (mover 0xF365 0xF355).machine.memory ∧
    ∃ h t u : Byte, 100 * h.toNat + 10 * t.toNat + u.toNat = 48 ∧
      spelled.machine.memory.read 0 = u := by
  intro stored spelled
  have fits (first second mask pattern : Word) (h : first &&& mask = pattern) :
      (mover first second).machine.word &&& mask = pattern := by
    rw [word_mover, h]
  obtain ⟨-, -, placed, -, restored⟩ :=
    (transfers_round_trip (mover 0xF355 0xF365)).1 (fits _ _ _ _ rfl)
  obtain ⟨-, -, -, -, undone⟩ :=
    (transfers_round_trip (mover 0xF365 0xF355)).2.1 (fits _ _ _ _ rfl)
  obtain ⟨-, -, ⟨h, t, u, -, number, -, -, last⟩, -⟩ :=
    (transfers_round_trip (mover 0xF333 0)).2.2 (fits _ _ _ _ rfl)
  rw [word_mover] at placed restored undone number
  have within : (3 : Nibble) ≤ Word.x 0xF355 := by decide
  have value : (mover 0xF355 0xF365).machine.v 3 = 0x30 := by decide
  have loads := restored stored.blanked (by decide +kernel) (by decide +kernel) (by decide +kernel)
    fun j _ => by rw [memory_blanked]
  refine ⟨⟨(placed 3 within).trans value, (loads.2 3 within).trans value⟩, ?_, h, t, u, ?_, last⟩
  · exact (undone (by decide +kernel) (by decide +kernel)).2.2
  · exact number.trans (by decide)

end Engine
end ChipEight
