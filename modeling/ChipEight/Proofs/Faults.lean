import ChipEight.Proofs.Decoding
import ChipEight.Proofs.WellFormed

/-!
# Failing cycles

A cycle of a well-formed machine fails exactly on an unknown word of a strict machine, on a return
without a call, on a call with a full stack, and on a call from an address above sixteen bits. It
then counts itself, and leaves the rest as it was: each instruction that can fail does so before it
changes anything.

* `Engine.step_fails_iff`: the faults of a cycle, and what is left of the engine after one.
-/

namespace ChipEight

namespace Engine

/-- The faults of a cycle, each with its condition; any other cycle succeeds. After a fault only
the count of cycles differs, and the screen counts as not written to. -/
theorem step_fails_iff (e : Engine) (wellFormed : e.machine.WellFormed) :
    (∀ fault, e.step.result = .error fault ↔
      (e.machine.instruction = .unknown e.machine.word ∧ e.options.strict = true ∧
        fault = .unknownOpcode e.machine.word e.machine.pc) ∨
      (e.machine.instruction = .ret ∧ e.machine.sp = 0 ∧
        fault = .stackUnderflow e.machine.pc) ∨
      (∃ target, e.machine.instruction = .call target ∧ e.machine.sp = 16 ∧
        fault = .stackOverflow e.machine.pc) ∨
      (∃ target, e.machine.instruction = .call target ∧ e.machine.sp < 16 ∧
        65535 < e.machine.pc ∧ fault = .unstorableReturn e.machine.pc)) ∧
    (∀ fault, e.step.result = .error fault →
      e.step.engine =
        { e with machine :=
          { e.machine with cycles := e.machine.cycles + 1, dirty := false } }) ∧
    ((∀ fault, e.step.result ≠ .error fault) →
      e.step.result = .ok e.machine.instruction.paints) := by
  refine ⟨fun fault => ?_, fun fault h => ?_, fun h => ?_⟩
  · rw [step_result, Machine.step_eq_error_iff]
    constructor
    · intro fails
      cases hi : e.machine.instruction <;> rw [hi] at fails <;> cases fails
      case unknown.unknown w strict =>
        obtain rfl := Instruction.eq_of_decode_eq_unknown hi
        exact Or.inl ⟨rfl, strict, rfl⟩
      case ret.underflow empty =>
        exact Or.inr (Or.inl ⟨rfl, empty, rfl⟩)
      case call.overflow target full =>
        have depth := Nat.le_antisymm wellFormed.sp_le full
        exact Or.inr (Or.inr (Or.inl ⟨target, rfl, depth, rfl⟩))
      case call.unstorable target room high =>
        exact Or.inr (Or.inr (Or.inr ⟨target, rfl, room, high, rfl⟩))
    · rintro (⟨hi, strict, rfl⟩ | ⟨hi, empty, rfl⟩ | ⟨target, hi, full, rfl⟩ |
        ⟨target, hi, room, high, rfl⟩)
      · rw [hi]
        exact .unknown _ strict
      · rw [hi]
        exact .underflow empty
      · rw [hi]
        exact .overflow target (Nat.le_of_eq full.symm)
      · rw [hi]
        exact .unstorable target room high
  · have counted : (e.machine.step e.options).1 = e.machine.count := Machine.step_fault h
    rw [step_engine, counted]
    rfl
  · rcases Machine.step_cases e.options e.machine with ⟨done, -, hstep⟩ | ⟨fault, -, hstep⟩
    · rw [step_result, hstep]
    · exact absurd (congrArg Prod.snd hstep) (h fault)

/-- An engine about to call from an address that no stack entry can hold. -/
def farCaller : Engine where
  machine :=
    { memory := Memory.blank.writeAll 0 [0x22, 0x22]
      pc := 65536
      random := .cycle #[] }
  log := ⟨.warning, false⟩

theorem step_fails_farCaller :
    farCaller.machine.WellFormed ∧
    farCaller.step.result = .error (.unstorableReturn 65536) ∧
    farCaller.step.engine =
      { farCaller with machine := { farCaller.machine with cycles := 1, dirty := false } } := by
  have wellFormed : farCaller.machine.WellFormed := by
    exact ⟨by decide, by decide, by decide, (Machine.WellFormed.boot (.cycle #[])).latch_le⟩
  have next : farCaller.machine.instruction = .call 0x222 := by decide
  have result : farCaller.step.result = .error (.unstorableReturn 65536) :=
    ((step_fails_iff farCaller wellFormed).1 _).2
      (Or.inr (Or.inr (Or.inr ⟨0x222, next, by decide, by decide, rfl⟩)))
  exact ⟨wellFormed, result, (step_fails_iff farCaller wellFormed).2.1 _ result⟩

end Engine
end ChipEight
