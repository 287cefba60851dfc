import ChipEight.Proofs.Effect
import ChipEight.Proofs.Run
import Mathlib.Data.List.Infix

/-!
# Nesting of subroutines

A run leaves a record of the calls it made and the returns it took, which says by counting alone
which calls were not returned from. The stack holds exactly those.

* `unreturned`: the addresses of the calls that were not returned from, oldest first.
* `Engine.Recorded`: the stack agrees with a record; every action keeps that up.
* `Engine.suffix_after`: a stack entry stays in place for as long as the stack is no shorter.
* `Engine.calls_nest`: a call is returned to at the instruction behind it, and the stack lists the
  calls that were not returned from.
-/

namespace ChipEight

/-- A call that was made at an address, or a return. -/
inductive Visit where
  | enter (pc : Nat)
  | leave
  deriving DecidableEq, Repr

namespace Visit

def enters : List Visit → Nat
  | [] => 0
  | .enter _ :: later => enters later + 1
  | .leave :: later => enters later

def leaves : List Visit → Nat
  | [] => 0
  | .enter _ :: later => leaves later
  | .leave :: later => leaves later + 1

/-- At some point of what came after a call, the returns outnumber the calls. -/
def Returned (later : List Visit) : Prop :=
  ∃ start, start <+: later ∧ enters start < leaves start

/-- The returns of a record that no call before them accounts for. -/
def surplus : List Visit → Nat
  | [] => 0
  | .enter _ :: later => surplus later - 1
  | .leave :: later => surplus later + 1

theorem lt_surplus_iff (later : List Visit) (n : Nat) :
    n < surplus later ↔ ∃ start, start <+: later ∧ enters start + n < leaves start := by
  induction later generalizing n with
  | nil =>
      simp [surplus, enters, leaves]
  | cons visit later ih =>
      cases visit with
      | enter pc =>
          rw [surplus, Nat.lt_sub_iff_add_lt, ih]
          constructor
          · rintro ⟨start, hstart, hlt⟩
            refine ⟨.enter pc :: start, List.cons_prefix_cons.2 ⟨rfl, hstart⟩, ?_⟩
            rw [enters, leaves]
            omega
          · rintro ⟨start, hstart, hlt⟩
            rcases List.prefix_cons_iff.1 hstart with rfl | ⟨rest, rfl, hrest⟩
            · simp [enters, leaves] at hlt
            · rw [enters, leaves] at hlt
              exact ⟨rest, hrest, by omega⟩
      | leave =>
          cases n with
          | zero =>
              refine ⟨fun _ => ⟨[.leave], List.cons_prefix_cons.2 ⟨rfl, List.nil_prefix⟩, ?_⟩,
                fun _ => Nat.succ_pos _⟩
              simp [enters, leaves]
          | succ n =>
              rw [surplus, Nat.succ_lt_succ_iff, ih]
              constructor
              · rintro ⟨start, hstart, hlt⟩
                refine ⟨.leave :: start, List.cons_prefix_cons.2 ⟨rfl, hstart⟩, ?_⟩
                rw [enters, leaves]
                omega
              · rintro ⟨start, hstart, hlt⟩
                rcases List.prefix_cons_iff.1 hstart with rfl | ⟨rest, rfl, hrest⟩
                · simp [enters, leaves] at hlt
                · rw [enters, leaves] at hlt
                  exact ⟨rest, hrest, by omega⟩

theorem returned_iff (later : List Visit) : Returned later ↔ surplus later ≠ 0 :=
  ((lt_surplus_iff later 0).symm).trans Nat.pos_iff_ne_zero

instance (later : List Visit) : Decidable (Returned later) :=
  decidable_of_iff _ (returned_iff later).symm

/-- The addresses of the calls that were not returned from, the oldest first. -/
def unreturned : List Visit → List Nat
  | [] => []
  | .enter pc :: later => if Returned later then unreturned later else pc :: unreturned later
  | .leave :: later => unreturned later

theorem unreturned_enter_of_eq {pc : Nat} {later : List Visit} (h : surplus later = 0) :
    unreturned (.enter pc :: later) = pc :: unreturned later := by
  rw [unreturned, if_neg]
  rw [returned_iff]
  exact fun hne => hne h

theorem unreturned_enter_of_ne {pc : Nat} {later : List Visit} (h : surplus later ≠ 0) :
    unreturned (.enter pc :: later) = unreturned later := by
  rw [unreturned, if_pos]
  rw [returned_iff]
  exact h

theorem length_unreturned (past : List Visit) :
    (unreturned past).length + leaves past = enters past + surplus past := by
  induction past with
  | nil =>
      rfl
  | cons visit later ih =>
      cases visit with
      | enter pc =>
          by_cases h : surplus later = 0
          · rw [unreturned_enter_of_eq h, List.length_cons, leaves, enters, surplus]
            omega
          · rw [unreturned_enter_of_ne h, leaves, enters, surplus]
            omega
      | leave =>
          rw [unreturned, leaves, enters, surplus]
          omega

theorem surplus_concat_enter (past : List Visit) (pc : Nat) :
    surplus (past ++ [.enter pc]) = surplus past := by
  induction past with
  | nil =>
      rfl
  | cons visit later ih =>
      cases visit <;> simp [surplus, ih]

theorem unreturned_concat_enter (past : List Visit) (pc : Nat) :
    unreturned (past ++ [.enter pc]) = unreturned past ++ [pc] := by
  induction past with
  | nil =>
      rfl
  | cons visit later ih =>
      cases visit with
      | enter first =>
          rw [List.cons_append]
          by_cases h : surplus later = 0
          · have h' := (surplus_concat_enter later pc).trans h
            rw [unreturned_enter_of_eq h, unreturned_enter_of_eq h', ih, List.cons_append]
          · have h' : surplus (later ++ [.enter pc]) ≠ 0 := by
              rw [surplus_concat_enter]
              exact h
            rw [unreturned_enter_of_ne h, unreturned_enter_of_ne h', ih]
      | leave =>
          rw [List.cons_append, unreturned, unreturned, ih]

theorem surplus_concat_leave (past : List Visit) :
    surplus (past ++ [.leave]) =
      if unreturned past = [] then surplus past + 1 else surplus past := by
  induction past with
  | nil =>
      rfl
  | cons visit later ih =>
      cases visit with
      | enter pc =>
          rw [List.cons_append, surplus, ih, surplus]
          by_cases h : surplus later = 0
          · rw [unreturned_enter_of_eq h, if_neg (List.cons_ne_nil _ _)]
            split <;> omega
          · rw [unreturned_enter_of_ne h]
            split <;> omega
      | leave =>
          rw [List.cons_append, surplus, ih, surplus, unreturned]
          split <;> rfl

/-- A return takes away the latest call that was not returned from. -/
theorem unreturned_concat_leave (past : List Visit) :
    unreturned (past ++ [.leave]) = (unreturned past).dropLast := by
  induction past with
  | nil =>
      rfl
  | cons visit later ih =>
      cases visit with
      | enter pc =>
          have hsurplus := surplus_concat_leave later
          rw [List.cons_append]
          by_cases h : surplus later = 0
          · rw [unreturned_enter_of_eq h]
            -- the return is to this call exactly when none after it is open
            by_cases hnil : unreturned later = []
            · rw [if_pos hnil] at hsurplus
              rw [unreturned_enter_of_ne (by omega), ih, hnil]
              rfl
            · rw [if_neg hnil] at hsurplus
              rw [unreturned_enter_of_eq (by omega), ih, List.dropLast_cons_of_ne_nil hnil]
          · have h' : surplus (later ++ [.leave]) ≠ 0 := by
              rw [hsurplus]
              split <;> omega
            rw [unreturned_enter_of_ne h, unreturned_enter_of_ne h', ih]
      | leave =>
          rw [List.cons_append, unreturned, unreturned, ih]

end Visit

namespace Engine

open Visit

/-- The call or the return that the next step completes, if it completes one. -/
def visit? (e : Engine) : Option Visit :=
  match e.step.result, e.machine.instruction with
  | .ok _, .call _ => some (.enter e.machine.pc)
  | .ok _, .ret => some .leave
  | _, _ => none

/-- The record after an action; a reset starts a new one. -/
def note (e : Engine) (past : List Visit) : Action → List Visit
  | .reset => []
  | .step => past ++ e.visit?.toList
  | _ => past

def visits (e : Engine) (past : List Visit) : List Action → List Visit
  | [] => past
  | action :: rest => (e.perform action).engine.visits (e.note past action) rest

theorem visit_cases (e : Engine) :
    (e.visit? = some (.enter e.machine.pc) ∧ e.machine.pc ≤ 65535 ∧
      e.step.engine.machine.stack = BitVec.ofNat 16 e.machine.pc :: e.machine.stack) ∨
    (e.visit? = some .leave ∧ e.machine.instruction = .ret ∧
      ∃ caller callers, e.machine.stack = caller :: callers ∧
        e.step.engine.machine.stack = callers ∧
        e.step.engine.machine.pc = caller.toNat + 2) ∨
    (e.visit? = none ∧ e.step.engine.machine.stack = e.machine.stack) := by
  unfold visit?
  rw [step_result, step_engine]
  rcases Machine.step_cases e.options e.machine with
    ⟨done, executed, hstep⟩ | ⟨fault, -, hstep⟩
  · rw [hstep]
    generalize e.machine.instruction = i at executed ⊢
    cases executed with
    | call target room storable =>
        exact Or.inl ⟨rfl, storable, (Machine.stack_age _).trans (Machine.stack_push room _)⟩
    | ret top =>
        have popped := (Machine.eq_slot_cons_of_stack top).2.symm
        exact Or.inr (Or.inl ⟨rfl, rfl, _, _, top, (Machine.stack_age _).trans popped,
          Machine.pc_age _⟩)
    | plain flat kept =>
        refine Or.inr (Or.inr ⟨?_, (Machine.stack_age _).trans kept.stack_eq⟩)
        cases i with
        | call target => cases flat
        | ret => cases flat
        | _ => rfl
  · rw [hstep]
    exact Or.inr (Or.inr ⟨rfl, rfl⟩)

theorem perform_stack {e : Engine} {action : Action}
    (noReset : action ≠ .reset) (noStep : action ≠ .step) :
    (e.perform action).engine.machine.stack = e.machine.stack := by
  have act := e.perform_acted action
  generalize (e.perform action).engine.machine = m' at act ⊢
  cases act with
  | reset =>
      exact absurd rfl noReset
  | step =>
      exact absurd rfl noStep
  | takeRedraw =>
      rfl
  | load known fits =>
      rfl
  | arm flat =>
      exact Machine.stack_arm _ _
  | stay =>
      rfl

theorem note_eq {e : Engine} {past : List Visit} {action : Action}
    (noReset : action ≠ .reset) (noStep : action ≠ .step) :
    e.note past action = past := by
  cases action with
  | reset =>
      exact absurd rfl noReset
  | step =>
      exact absurd rfl noStep
  | _ =>
      rfl

/-- The stack lists the calls of a record that were not returned from, and the record has no return
without a call. -/
structure Recorded (e : Engine) (past : List Visit) : Prop where
  callers_eq : e.machine.callers.map BitVec.toNat = unreturned past
  surplus_eq : surplus past = 0

theorem Recorded.step {e : Engine} {past : List Visit} (h : e.Recorded past) :
    e.step.engine.Recorded (past ++ e.visit?.toList) := by
  rcases e.visit_cases with
    ⟨hvisit, storable, hstack⟩ | ⟨hvisit, -, caller, callers, htop, hstack, -⟩ | ⟨hvisit, hstack⟩
  · rw [hvisit, Option.toList_some]
    constructor
    · rw [unreturned_concat_enter, ← h.callers_eq, Machine.callers, hstack, Machine.callers,
        List.reverse_cons, List.map_append, List.map_singleton,
        Machine.toNat_returnAddress storable]
    · rw [surplus_concat_enter]
      exact h.surplus_eq
  · have hcallers := h.callers_eq
    rw [Machine.callers, htop, List.reverse_cons, List.map_append, List.map_singleton] at hcallers
    rw [hvisit, Option.toList_some]
    constructor
    · rw [unreturned_concat_leave, ← hcallers, List.dropLast_concat, Machine.callers, hstack]
    · rw [surplus_concat_leave, if_neg, h.surplus_eq]
      rw [← hcallers]
      simp
  · rw [hvisit, Option.toList_none, List.append_nil]
    exact ⟨by rw [Machine.callers, hstack]; exact h.callers_eq, h.surplus_eq⟩

theorem Recorded.perform {e : Engine} {past : List Visit} (h : e.Recorded past)
    (action : Action) :
    (e.perform action).engine.Recorded (e.note past action) := by
  by_cases hreset : action = .reset
  · subst hreset
    exact ⟨rfl, rfl⟩
  · by_cases hstep : action = .step
    · subst hstep
      exact h.step
    · rw [note_eq hreset hstep]
      refine ⟨?_, h.surplus_eq⟩
      rw [Machine.callers, perform_stack hreset hstep]
      exact h.callers_eq

theorem Recorded.after {e : Engine} {past : List Visit} (h : e.Recorded past)
    (actions : List Action) :
    (e.after actions).Recorded (e.visits past actions) := by
  induction actions generalizing e past with
  | nil =>
      exact h
  | cons action rest ih =>
      exact ih (h.perform action)

/-- An action other than a reset keeps the entries at the bottom of the stack, or is a return that
takes the topmost of them. -/
theorem suffix_perform
    {e : Engine} {entry : Word} {below : List Word} {action : Action}
    (held : entry :: below <:+ e.machine.stack) (noReset : action ≠ .reset) :
    entry :: below <:+ (e.perform action).engine.machine.stack ∨
      action = .step ∧ e.machine.instruction = .ret ∧
        (e.perform action).engine.machine.stack = below ∧
        (e.perform action).engine.machine.pc = entry.toNat + 2 := by
  by_cases hstep : action = .step
  · subst hstep
    show _ <:+ e.step.engine.machine.stack ∨ _ ∧ _ ∧ e.step.engine.machine.stack = _ ∧
      e.step.engine.machine.pc = _
    rcases e.visit_cases with
      ⟨-, -, hstack⟩ | ⟨-, hret, caller, callers, htop, hstack, hpc⟩ | ⟨-, hstack⟩
    · rw [hstack]
      exact Or.inl (held.trans (List.suffix_cons _ _))
    · rw [htop] at held
      rcases List.suffix_cons_iff.1 held with hall | hheld
      · obtain ⟨rfl, rfl⟩ := List.cons.inj hall
        exact Or.inr ⟨rfl, hret, hstack, hpc⟩
      · rw [hstack]
        exact Or.inl hheld
    · rw [hstack]
      exact Or.inl held
  · rw [perform_stack noReset hstep]
    exact Or.inl held

/-- The entries at the bottom of the stack stay in place as long as the stack never gets down to
those below them. -/
theorem suffix_after
    {e : Engine} {entry : Word} {below : List Word} {actions : List Action}
    (held : entry :: below <:+ e.machine.stack)
    (noReset : ∀ action ∈ actions, action ≠ .reset)
    (deep : ∀ start, start <+: actions →
      (e.after start).machine.stack.length ≠ below.length) :
    entry :: below <:+ (e.after actions).machine.stack := by
  induction actions generalizing e with
  | nil =>
      exact held
  | cons action rest ih =>
      have hfirst := deep [action] (List.cons_prefix_cons.2 ⟨rfl, List.nil_prefix⟩)
      rcases suffix_perform held (noReset action List.mem_cons_self) with
        hheld | ⟨-, -, hstack, -⟩
      · refine ih hheld (fun later h => noReset later (List.mem_cons_of_mem _ h)) ?_
        intro start hstart
        exact deep (action :: start) (List.cons_prefix_cons.2 ⟨rfl, hstart⟩)
      · exact absurd (congrArg List.length hstack) hfirst

theorem step_call_stack {e : Engine} {target : Address}
    (hcall : e.machine.instruction = .call target)
    (completed : ∃ painted, e.step.result = .ok painted) :
    e.machine.pc ≤ 65535 ∧
      e.step.engine.machine.stack = BitVec.ofNat 16 e.machine.pc :: e.machine.stack := by
  obtain ⟨painted, hresult⟩ := completed
  have hvisit : e.visit? = some (.enter e.machine.pc) := by
    rw [visit?, hresult, hcall]
  rcases e.visit_cases with ⟨-, storable, hstack⟩ | ⟨hleave, -⟩ | ⟨hnone, -⟩
  · exact ⟨storable, hstack⟩
  · rw [hvisit] at hleave
    cases hleave
  · rw [hvisit] at hnone
    cases hnone

/-- **Calls and returns nest.** Once a call went through, the action that first brings the stack
back to the depth before it is a return, and it goes on two bytes behind the call. After any run
from a reset the stack lists the calls that were not returned from, oldest first, and its depth is
the number of calls less the number of returns. -/
theorem calls_nest :
    (∀ (e : Engine) (target : Address) (actions : List Action) (last : Action),
      e.machine.instruction = .call target →
      (∃ painted, e.step.result = .ok painted) →
      (∀ action ∈ actions ++ [last], action ≠ .reset) →
      (∀ start, start <+: actions →
        (e.step.engine.after start).machine.sp ≠ e.machine.sp) →
      (e.step.engine.after (actions ++ [last])).machine.sp = e.machine.sp →
      last = .step ∧
      (e.step.engine.after actions).machine.instruction = .ret ∧
      (e.step.engine.after (actions ++ [last])).machine.pc = e.machine.pc + 2) ∧
    ∀ (e : Engine) (actions : List Action),
      (e.reset.after actions).machine.callers.map BitVec.toNat =
        unreturned (e.reset.visits [] actions) ∧
      (e.reset.after actions).machine.sp + leaves (e.reset.visits [] actions) =
        enters (e.reset.visits [] actions) := by
  constructor
  · intro e target actions last hcall completed noReset deep back
    obtain ⟨storable, hstack⟩ := step_call_stack hcall completed
    simp only [← Machine.length_stack] at deep back
    have held : BitVec.ofNat 16 e.machine.pc :: e.machine.stack <:+
        (e.step.engine.after actions).machine.stack :=
      suffix_after (hstack ▸ List.suffix_refl _)
        (fun action h => noReset action (List.mem_append_left _ h)) deep
    rw [after_concat] at back ⊢
    rcases suffix_perform held (noReset last (by simp)) with hheld | ⟨rfl, hret, -, hreturn⟩
    · have hlength := hheld.length_le
      rw [back, List.length_cons] at hlength
      omega
    · rw [Machine.toNat_returnAddress storable] at hreturn
      exact ⟨rfl, hret, hreturn⟩
  · intro e actions
    have first : e.reset.Recorded [] := ⟨rfl, rfl⟩
    have recorded := first.after actions
    have hlength := length_unreturned (e.reset.visits [] actions)
    rw [recorded.surplus_eq, Nat.add_zero, ← recorded.callers_eq, List.length_map,
      Machine.callers, List.length_reverse, Machine.length_stack] at hlength
    exact ⟨recorded.callers_eq, hlength⟩

/-- An engine with a subroutine at `004` that calls another one at `008`, about to call the first. -/
def nestedCaller : Engine where
  machine :=
    { memory := Memory.blank.writeAll 0
        [0x20, 0x04, 0x00, 0x00, 0x20, 0x08, 0x00, 0xEE, 0x00, 0xEE]
      pc := 0
      random := .cycle #[] }
  log := ⟨.warning, false⟩

theorem calls_nest_nestedCaller :
    nestedCaller.machine.pc = 0x000 ∧
    (nestedCaller.step.engine.after [.step, .takeRedraw, .step, .step]).machine.pc = 0x002 := by
  have hcall : nestedCaller.machine.instruction = .call 0x004 := by decide
  have completed : nestedCaller.step.result = .ok false := by
    rw [step_result, Machine.step, hcall]
    rfl
  have deep : ∀ start ∈ [Action.step, .takeRedraw, .step].inits,
      (nestedCaller.step.engine.after start).machine.sp ≠ nestedCaller.machine.sp := by
    decide +kernel
  have nested := calls_nest.1 nestedCaller 0x004 [.step, .takeRedraw, .step] .step
    hcall ⟨false, completed⟩ (by simp)
    (fun start hstart => deep start ((List.mem_inits _ _).2 hstart)) (by decide +kernel)
  exact ⟨rfl, nested.2.2⟩

end Engine
end ChipEight
