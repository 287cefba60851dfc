import ChipEight.Proofs.Effect
import ChipEight.Proofs.LongWalk
import ChipEight.Proofs.Run
import Mathlib.Data.List.Induction

/-!
# Faults that are not the program's

A step fails with a fault of the machine itself, not of the program, only when it calls from an
address above sixteen bits. Only a return leads there, from a call at one of the two last addresses
that a stack entry can hold, and the next action that moves the program counter leads away again.

* `Engine.pc_high_iff`: when the program counter is above sixteen bits.
* `Engine.foreign_fault_iff`: exactly which runs of a new engine meet such a fault.
* `Engine.foreign_fault_longWalk`: a program that does.
-/

namespace ChipEight

namespace Machine

/-- A step moves the program counter above sixteen bits only by a return. -/
theorem step_pc (o : Options) (m : Machine) :
    (m.step o).1.pc = m.pc ∨ (m.step o).1.pc ≤ 65535 ∨
      m.instruction = .ret ∧
        ∃ caller callers, m.stack = caller :: callers ∧ (m.step o).1.pc = caller.toNat + 2 := by
  rcases step_cases o m with ⟨done, executed, hstep⟩ | ⟨fault, -, hstep⟩
  · rw [hstep, pc_age]
    generalize m.instruction = i at executed ⊢
    cases executed with
    | call target room storable =>
        have low := target.isLt
        refine Or.inr (Or.inl ?_)
        show target.toNat ≤ 65535
        omega
    | ret top =>
        exact Or.inr (Or.inr ⟨rfl, _, _, top, rfl⟩)
    | plain flat kept =>
        rcases kept.pc_eq_or_lt with same | low
        · exact Or.inl same
        · exact Or.inr (Or.inl (Nat.le_of_lt_succ low))
  · rw [hstep]
    exact Or.inl rfl

theorem Acted.pc_cases {o : Options} {m m' : Machine} {action : Action}
    (act : m.Acted o action m') :
    m'.pc = m.pc ∨ m'.pc ≤ 65535 ∨
      action = .step ∧ m.instruction = .ret ∧
        ∃ caller callers, m.stack = caller :: callers ∧ m'.pc = caller.toNat + 2 := by
  cases act with
  | reset =>
      refine Or.inr (Or.inl ?_)
      show Memory.programStart ≤ 65535
      decide
  | step =>
      rcases step_pc o m with same | low | returned
      · exact Or.inl same
      · exact Or.inr (Or.inl low)
      · exact Or.inr (Or.inr ⟨rfl, returned⟩)
  | takeRedraw =>
      exact Or.inl rfl
  | load known fits =>
      exact Or.inl rfl
  | arm flat =>
      exact Or.inl (pc_arm m _)
  | stay noReset noStep =>
      exact Or.inl rfl

end Machine

namespace Engine

/-- The latest action of a run that moved the program counter was a return to a call at one of the
last two addresses that a stack entry can hold. -/
def ReturnedHigh (e : Engine) (run : List Action) : Prop :=
  ∃ before later caller callers,
    run = before ++ .step :: later ∧
    (e.after before).machine.instruction = .ret ∧
    (e.after before).machine.stack = caller :: callers ∧
    65534 ≤ caller.toNat ∧
    ∀ waited, waited <+: later →
      (e.after (before ++ .step :: waited)).machine.pc = caller.toNat + 2

theorem pc_high_iff {e : Engine} (start : e.machine.pc ≤ 65535) (run : List Action) :
    65535 < (e.after run).machine.pc ↔ e.ReturnedHigh run := by
  constructor
  · induction run using List.reverseRecOn with
    | nil =>
        intro high
        exact absurd start (Nat.not_le_of_lt high)
    | append_singleton run action ih =>
        intro high
        rw [after_concat] at high
        -- the last action left the program counter alone, or was itself the return
        rcases ((e.after run).perform_acted action).pc_cases with
          same | low | ⟨rfl, hret, caller, callers, hstack, hpc⟩
        · rw [same] at high
          obtain ⟨before, later, caller, callers, rfl, hret, hstack, hcaller, stayed⟩ := ih high
          refine ⟨before, later ++ [action], caller, callers, by simp, hret, hstack, hcaller, ?_⟩
          intro waited hwaited
          rcases List.prefix_concat_iff.1 hwaited with rfl | hwaited
          · rw [← List.cons_append, ← List.append_assoc, after_concat, same]
            exact stayed later (List.prefix_refl later)
          · exact stayed waited hwaited
        · omega
        · refine ⟨run, [], caller, callers, rfl, hret, hstack, by omega, ?_⟩
          intro waited hwaited
          obtain rfl := List.prefix_nil.1 hwaited
          rw [after_concat]
          exact hpc
  · rintro ⟨before, later, caller, callers, rfl, -, -, hcaller, stayed⟩
    have := stayed later (List.prefix_refl later)
    omega

theorem answered_eq_error_iff
    {α ε : Type} {answer : α → Answer} {fail : ε → Failure} {result : Except ε α}
    {failure : Failure} :
    perform.answered answer fail result = .error failure ↔
      ∃ cause, result = .error cause ∧ fail cause = failure := by
  cases result with
  | ok value =>
      exact ⟨nofun, nofun⟩
  | error cause =>
      constructor
      · intro h
        exact ⟨cause, rfl, Except.error.inj h⟩
      · rintro ⟨_, hcause, rfl⟩
        cases hcause
        rfl

theorem perform_eq_fault_iff (e : Engine) (action : Action) (fault : Fault) :
    (e.perform action).result = .error (.fault fault) ↔
      action = .step ∧ e.step.result = .error fault := by
  cases action with
  | step =>
      refine answered_eq_error_iff.trans ?_
      simp
  | load program =>
      refine answered_eq_error_iff.trans ?_
      simp
  | setKeys report =>
      refine answered_eq_error_iff.trans ?_
      simp
  | _ =>
      exact ⟨nofun, nofun⟩

/-- A step fails with a fault of the machine itself exactly when it calls, with room on the stack,
from an address above sixteen bits. -/
theorem step_foreign_iff (e : Engine) :
    (∃ fault, e.step.result = .error fault ∧ fault.ofProgram = false) ↔
      (∃ target, e.machine.instruction = .call target) ∧
        e.machine.sp < 16 ∧ 65535 < e.machine.pc := by
  simp only [step_result, Machine.step_eq_error_iff]
  generalize e.machine.instruction = i
  constructor
  · rintro ⟨fault, fails, foreign⟩
    cases fails with
    | unstorable target room high =>
        exact ⟨⟨target, rfl⟩, room, high⟩
    | unknown w strict =>
        cases foreign
    | underflow empty =>
        cases foreign
    | overflow target full =>
        cases foreign
  · rintro ⟨⟨target, rfl⟩, room, high⟩
    exact ⟨_, .unstorable target room high, rfl⟩

/-- A run of a new engine meets a fault that is not the program's exactly when, at some step of it,
the latest move of the program counter was a return to a call at `FFFE` or `FFFF`, the word under
it is a call and the stack has room. -/
theorem foreign_fault_iff
    (options : Options) (random : RandomBytes) (log : Log) (actions : List Action) :
    (∃ reply ∈ (Engine.boot options random log).performAll actions,
        ∃ fault, reply.result = .error (.fault fault) ∧ fault.ofProgram = false) ↔
      ∃ run rest,
        actions = run ++ .step :: rest ∧
        (Engine.boot options random log).ReturnedHigh run ∧
        (∃ target,
          ((Engine.boot options random log).after run).machine.instruction = .call target) ∧
        ((Engine.boot options random log).after run).machine.sp < 16 := by
  have start : (Engine.boot options random log).machine.pc ≤ 65535 := by
    show Memory.programStart ≤ 65535
    decide
  constructor
  · rintro ⟨reply, hreply, fault, hfault, foreign⟩
    obtain ⟨run, action, rest, rfl, rfl⟩ := (mem_performAll _ _ _).1 hreply
    obtain ⟨rfl, hstep⟩ := (perform_eq_fault_iff _ _ _).1 hfault
    obtain ⟨calls, room, high⟩ := (step_foreign_iff _).1 ⟨fault, hstep, foreign⟩
    exact ⟨run, rest, rfl, (pc_high_iff start run).1 high, calls, room⟩
  · rintro ⟨run, rest, rfl, returned, calls, room⟩
    have high := (pc_high_iff start run).2 returned
    obtain ⟨fault, hstep, foreign⟩ := (step_foreign_iff _).2 ⟨calls, room, high⟩
    exact ⟨_, (mem_performAll _ _ _).2 ⟨run, .step, rest, rfl, rfl⟩, fault,
      (perform_eq_fault_iff _ _ _).2 ⟨rfl, hstep⟩, foreign⟩

theorem foreign_fault_longWalk :
    ∃ reply ∈ (Engine.boot {} (.cycle #[0]) ⟨.warning, false⟩).performAll
        (LongWalk.run ++ [.step]),
      reply.result = .error (.fault (.unstorableReturn 65536)) ∧
      (Fault.unstorableReturn 65536).ofProgram = false := by
  have arrived := LongWalk.after_run {} (.cycle #[0]) ⟨.warning, false⟩
  have stone (a : Nat) (h : a % 4096 < 0x220) : (LongWalk.ground 66).read a = 0x22 :=
    LongWalk.paved_ground.stone a (Or.inl h)
  refine ⟨_, (mem_performAll _ _ _).2 ⟨LongWalk.run, .step, [], rfl, rfl⟩, ?_, rfl⟩
  rw [perform_eq_fault_iff]
  refine ⟨rfl, ?_⟩
  rw [step_result, Machine.step_eq_error_iff]
  have hcall := arrived.instruction_eq (stone 65536 (by omega)) (stone 65537 (by omega))
  rw [LongWalk.decode_stone] at hcall
  rw [hcall, ← arrived.pc_eq]
  refine .unstorable 0x222 ?_ ?_
  · rw [(Machine.stack_eq_nil_iff _).1 arrived.stack_eq]
    decide
  · rw [arrived.pc_eq]
    decide

end Engine
end ChipEight
