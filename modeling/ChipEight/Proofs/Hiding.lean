import ChipEight.Proofs.Run

/-!
# Runs with actions left out

Some actions only touch a part of the engine that the other actions neither read nor show. Once that
part is hidden, a run answers the other actions as if those had never been carried out.

* `Engine.repliesTo`: the replies of a run to actions of a kind.
* `Engine.Hides`: a part of the engine that the kept actions do not depend on and that is all the
  others touch.
* `Engine.Hides.repliesTo_eq`, `Engine.Hides.hide_after`: from there a run and the run without the
  others give the same replies and end alike.
-/

namespace ChipEight
namespace Engine

/-- The replies of a run to the actions of a kind, in their order. -/
def repliesTo (kept : Action → Bool) (e : Engine) (run : List Action) :
    List (Reply (Except Failure Answer)) :=
  ((run.zip (e.performAll run)).filter fun pair => kept pair.1).map (·.2)

section Replies

variable {kept : Action → Bool} {action : Action}

theorem repliesTo_cons_of_kept (h : kept action = true) (e : Engine) (rest : List Action) :
    e.repliesTo kept (action :: rest) =
      e.perform action :: (e.perform action).engine.repliesTo kept rest := by
  simp [repliesTo, performAll, h]

theorem repliesTo_cons_of_dropped (h : kept action = false) (e : Engine) (rest : List Action) :
    e.repliesTo kept (action :: rest) = (e.perform action).engine.repliesTo kept rest := by
  simp [repliesTo, performAll, h]

theorem repliesTo_of_forall {run : List Action} (all : ∀ action ∈ run, kept action = true)
    (e : Engine) : e.repliesTo kept run = e.performAll run := by
  induction run generalizing e with
  | nil =>
      rfl
  | cons action rest ih =>
      obtain ⟨first, others⟩ := List.forall_mem_cons.1 all
      rw [repliesTo_cons_of_kept first, ih others, performAll]

end Replies

/-- What `hide` hides of an engine matters to no action that is kept, a step only taken where it is
`blind`, and nothing else is touched by the others. What is left of a reply is what `see` shows. -/
structure Hides (kept : Action → Bool) (hide : Engine → Engine)
    (see : Reply (Except Failure Answer) → Reply (Except Failure Answer))
    (blind : Engine → Prop) : Prop where
  engine_see : ∀ reply, (see reply).engine = hide reply.engine
  kept_step : kept .step = true
  blind_hide : ∀ {e}, blind (hide e) ↔ blind e
  perform_kept : ∀ {e action}, kept action = true → (∀ s ∈ e.startOf action, blind s) →
    (hide e).perform action = see (e.perform action)
  perform_dropped : ∀ {e action}, kept action = false →
    hide (e.perform action).engine = hide e

namespace Hides

variable {kept : Action → Bool} {hide : Engine → Engine}
  {see : Reply (Except Failure Answer) → Reply (Except Failure Answer)} {blind : Engine → Prop}

theorem hide_engine (h : Hides kept hide see blind) {e : Engine} {action : Action}
    (keep : kept action = true) (now : ∀ s ∈ e.startOf action, blind s) :
    ((hide e).perform action).engine = hide (e.perform action).engine := by
  rw [h.perform_kept keep now, h.engine_see]

theorem ne_step (h : Hides kept hide see blind) {action : Action} (drop : kept action = false) :
    action ≠ .step := by
  rintro rfl
  rw [h.kept_step] at drop
  cases drop

/-- The steps of a run are blind as soon as those of the run without the other actions are, and the
other way round. -/
theorem forall_starts_iff (h : Hides kept hide see blind) (e : Engine) (run : List Action) :
    (∀ s ∈ (hide e).starts (run.filter kept), blind s) ↔ ∀ s ∈ e.starts run, blind s := by
  induction run generalizing e with
  | nil =>
      simp
  | cons action rest ih =>
      cases keep : kept action with
      | false =>
          rw [List.filter_cons_of_neg (by simp [keep]), starts_cons_of_ne (h.ne_step keep),
            ← ih, h.perform_dropped keep]
      | true =>
          rw [List.filter_cons_of_pos keep]
          by_cases step : action = .step
          · subst step
            rw [starts_step, starts_step, List.forall_mem_cons, List.forall_mem_cons,
              h.blind_hide, ← ih]
            -- Where the first step is not blind, neither run of steps is.
            refine and_congr_right fun first => ?_
            have same := h.hide_engine keep (List.forall_mem_singleton.2 first)
            rw [perform_step_engine, perform_step_engine] at same
            rw [same]
          · have none : ∀ s ∈ e.startOf action, blind s := by
              cases action with
              | step =>
                  exact absurd rfl step
              | _ =>
                  exact nofun
            rw [starts_cons_of_ne step, starts_cons_of_ne step, h.hide_engine keep none, ih]

/-- What a run answers to the actions that are kept is what the run without the others answers. -/
theorem repliesTo_eq (h : Hides kept hide see blind) {e : Engine} {run : List Action}
    (steps : ∀ s ∈ e.starts run, blind s) :
    (e.repliesTo kept run).map see = (hide e).performAll (run.filter kept) := by
  induction run generalizing e with
  | nil =>
      rfl
  | cons action rest ih =>
      obtain ⟨now, later⟩ := List.forall_mem_append.1 steps
      cases keep : kept action with
      | false =>
          rw [List.filter_cons_of_neg (by simp [keep]), repliesTo_cons_of_dropped keep, ih later,
            h.perform_dropped keep]
      | true =>
          rw [List.filter_cons_of_pos keep, repliesTo_cons_of_kept keep, performAll,
            List.map_cons, ih later, h.hide_engine keep now, h.perform_kept keep now]

/-- A run and the run without the other actions end alike. -/
theorem hide_after (h : Hides kept hide see blind) {e : Engine} {run : List Action}
    (steps : ∀ s ∈ e.starts run, blind s) :
    hide (e.after run) = (hide e).after (run.filter kept) := by
  induction run generalizing e with
  | nil =>
      rfl
  | cons action rest ih =>
      obtain ⟨now, later⟩ := List.forall_mem_append.1 steps
      cases keep : kept action with
      | false =>
          rw [List.filter_cons_of_neg (by simp [keep]), after_cons, ih later,
            h.perform_dropped keep]
      | true =>
          rw [List.filter_cons_of_pos keep, after_cons, after_cons, ih later,
            h.hide_engine keep now]

end Hides
end Engine
end ChipEight
