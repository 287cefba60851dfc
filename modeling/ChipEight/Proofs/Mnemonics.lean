import ChipEight.Proofs.Effect
import ChipEight.Proofs.LineReader
import ChipEight.Proofs.Transfer

/-!
# Words with the same line

A listing has one line for two words only where they are shifts that differ in the `y` that no shift
looks at. So words with the same line do the same wherever they stand: a step on one changes what a
step on the other changes, and ends in the same way.

* `Word.SameShift`: the same shift of the same register.
* `Word.eq_or_sameShift`: what a listing shows tells words apart, up to that.
* `Machine.holding`: a machine with a word where it fetches from, and `Machine.StepsAlike`: steps
  that do the same on machines with different words there.
* `Instruction.mnemonic_identifies`: the words with the same line, and what they do.
-/

namespace ChipEight

namespace Word

open Instruction

/-- The same shift of the same register. -/
def SameShift (w w' : Word) : Prop :=
  w.x = w'.x ∧
    (w &&& 0xF00F = 0x8006 ∧ w' &&& 0xF00F = 0x8006 ∨
      w &&& 0xF00F = 0x800E ∧ w' &&& 0xF00F = 0x800E)

instance (w w' : Word) : Decidable (w.SameShift w') := inferInstanceAs (Decidable (_ ∧ _))

theorem listed_and (w : Word) : w.listed &&& 0xF00F = w &&& 0xF00F := by
  rw [listed]
  split
  · rw [BitVec.and_assoc]
    rfl
  · rfl

theorem x_listed (w : Word) : w.listed.x = w.x := by
  rw [listed]
  split
  · exact (nibble_of_and rfl (by decide)).symm
  · rfl

/-- What a listing shows of a word tells it from all but the same shift. -/
theorem eq_or_sameShift {w w' : Word} (same : w.listed = w'.listed) : w = w' ∨ w.SameShift w' := by
  have hop : w &&& 0xF00F = w' &&& 0xF00F := by rw [← listed_and, same, listed_and]
  have hx : w.x = w'.x := by rw [← x_listed, same, x_listed]
  by_cases shifts : w.Shifts
  · rcases shifts with right | left
    · exact Or.inr ⟨hx, Or.inl ⟨right, hop ▸ right⟩⟩
    · exact Or.inr ⟨hx, Or.inr ⟨left, hop ▸ left⟩⟩
  · have shifts' : ¬ w'.Shifts := by
      rw [Shifts, ← hop]
      exact shifts
    rw [listed, listed, if_neg shifts, if_neg shifts'] at same
    exact Or.inl same

/-- The `y` of a shift is not decoded. -/
theorem SameShift.decode_eq {w w' : Word} (h : w.SameShift w') :
    decode w = decode w' ∧ (decode w = .shiftRight w.x ∨ decode w = .shiftLeft w.x) := by
  obtain ⟨hx, ⟨right, right'⟩ | ⟨left, left'⟩⟩ := h
  · have shifted : decode w = .shiftRight w.x := decode_shiftRight right
    refine ⟨?_, Or.inl shifted⟩
    rw [shifted, decode_shiftRight right', hx]
  · have shifted : decode w = .shiftLeft w.x := decode_eq_shiftLeft_iff.2 ⟨left, rfl⟩
    refine ⟨?_, Or.inr shifted⟩
    rw [shifted, decode_eq_shiftLeft_iff.2 ⟨left', hx.symm⟩]

end Word

namespace Machine

/-- The machine with a word where it fetches from. -/
def holding (m : Machine) (w : Word) : Machine :=
  { m with memory := m.memory.writeAll m.codeAddress [w.toBytes.1, w.toBytes.2] }

theorem instruction_holding (m : Machine) (w : Word) : (m.holding w).instruction = .decode w := by
  have fetched : (m.holding w).word = w := word_of_writeAll rfl (Nat.zero_le _)
  rw [instruction, fetched]

/-- Steps on two machines do the same: they end in the same way, agree in all but the memory, and
every byte of the memory is either the same after them or one that neither of them has changed. -/
structure StepsAlike (o : Options) (m m' : Machine) : Prop where
  result_eq : (m.step o).2 = (m'.step o).2
  rest_eq : { (m.step o).1 with memory := (m'.step o).1.memory } = (m'.step o).1
  memory_eq : ∀ a, (m.step o).1.memory.read a = (m'.step o).1.memory.read a ∨
    (m.step o).1.memory.read a = m.memory.read a ∧
      (m'.step o).1.memory.read a = m'.memory.read a

theorem StepsAlike.refl (o : Options) (m : Machine) : StepsAlike o m m :=
  ⟨rfl, rfl, fun _ => Or.inl rfl⟩

/-- A shift neither reads the memory nor writes to it. -/
theorem execute_shift (o : Options) (m : Machine) (memory : Memory) {i : Instruction} {x : Nibble}
    (shift : i = .shiftRight x ∨ i = .shiftLeft x) :
    ∃ done, m.execute o i = .ok () done ∧ done.memory = m.memory ∧
      { m with memory }.execute o i = .ok () { done with memory } := by
  rcases shift with rfl | rfl
  · exact ⟨_, rfl, rfl, rfl⟩
  · simp only [execute]
    cases o.legacyShift with
    | false =>
        exact ⟨_, rfl, rfl, rfl⟩
    | true =>
        exact ⟨_, rfl, rfl, rfl⟩

/-- Machines that differ in memory alone, and fetch the same shift, step alike. -/
theorem stepsAlike_of_shift (o : Options) {m : Machine} {memory : Memory} {x : Nibble}
    (same : { m with memory }.instruction = m.instruction)
    (shift : m.instruction = .shiftRight x ∨ m.instruction = .shiftLeft x) :
    StepsAlike o m { m with memory } := by
  -- counted, the machines still differ in memory alone
  obtain ⟨done, hrun, kept, hrun'⟩ := execute_shift o m.count memory shift
  have hstep := step_of_execute rfl hrun
  have hstep' := step_of_execute same hrun'
  refine ⟨?_, ?_, fun a => Or.inr ⟨?_, ?_⟩⟩
  · rw [hstep, hstep']
  · rw [hstep, hstep']
    rfl
  · rw [hstep, memory_age, kept]
    rfl
  · rw [hstep']
    rfl

end Machine

namespace Instruction

/-- **A mnemonic tells its word.** Two words have the same line in a listing just when they are the
same word or the same shift, `8xy6` or `8xyE`, of the same register. Two words with the same line do
the same on every machine that holds them where it fetches from, with every choice of options. -/
theorem mnemonic_identifies (w w' : Word) :
    ((decode w).text = (decode w').text ↔ w = w' ∨ w.SameShift w') ∧
    ((decode w).text = (decode w').text →
      ∀ (o : Options) (m : Machine), (m.holding w).StepsAlike o (m.holding w')) := by
  have told : (decode w).text = (decode w').text → w = w' ∨ w.SameShift w' := by
    intro same
    have line : some w.listed = some w'.listed := by
      rw [← Word.ofLine?_text, same, Word.ofLine?_text]
    exact Word.eq_or_sameShift (Option.some.inj line)
  refine ⟨⟨told, ?_⟩, fun same o m => ?_⟩
  · rintro (rfl | shift)
    · rfl
    · rw [shift.decode_eq.1]
  · rcases told same with rfl | shift
    · exact .refl o _
    · obtain ⟨same, shift⟩ := shift.decode_eq
      rw [← m.instruction_holding] at shift
      refine Machine.stepsAlike_of_shift o ?_ shift
      exact (m.instruction_holding w').trans (same.symm.trans (m.instruction_holding w).symm)

/-- A machine with an odd number in `V1`. -/
def oddMachine : Machine := { registers := Registers.zero.set 1 3, random := .cycle #[] }

/-- The words `8126` and `81F6` have the same line and do the same; the difference `8125` has
another line than `81F5`. -/
theorem mnemonic_identifies_halved :
    (decode 0x8126).text = (decode 0x81F6).text ∧
    (oddMachine.holding 0x8126).StepsAlike {} (oddMachine.holding 0x81F6) ∧
    (decode 0x8125).text ≠ (decode 0x81F5).text := by
  obtain ⟨told, alike⟩ := mnemonic_identifies 0x8126 0x81F6
  have same := told.2 (Or.inr (by decide))
  refine ⟨same, alike same {} oddMachine, fun line => ?_⟩
  exact absurd ((mnemonic_identifies 0x8125 0x81F5).1.1 line) (by decide)

end Instruction
end ChipEight
