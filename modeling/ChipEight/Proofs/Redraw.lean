import ChipEight.Proofs.Effect
import ChipEight.Proofs.Run
import ChipEight.Proofs.WellFormed
import Mathlib.Data.List.Induction

/-!
# The redraw flag

Somebody who copies the picture whenever asking for a redraw is answered with yes always has the
current one right after asking: whatever writes to the screen raises the flag, and nothing else but
asking lowers it.

* `Engine.step_shown`: what a step does to the screen, to the flag and to the two counters.
* `Engine.Current`: while the flag is down a copy is current; every action keeps that up.
* `Engine.redraw_after_iff`: the flag is down exactly while nothing was painted since it was asked
  for.
* `Engine.redraw_protocol`: the copies, what a step reports, and what the counters count.
-/

namespace ChipEight

/-- An element of a list of blocks of one length is found by the block and the place in it. -/
theorem getElem?_flatMap_blocks {α β : Type} {block : α → List β} {n : Nat} {xs : List α}
    (hlength : ∀ x ∈ xs, (block x).length = n) (i : Nat) {j : Nat} (hj : j < n) :
    (xs.flatMap block)[n * i + j]? = xs[i]?.bind fun x => (block x)[j]? := by
  induction xs generalizing i with
  | nil =>
      simp
  | cons x xs ih =>
      have first : (block x).length = n := hlength x List.mem_cons_self
      rw [List.flatMap_cons]
      cases i with
      | zero =>
          rw [Nat.mul_zero, Nat.zero_add, List.getElem?_append_left (by omega)]
          rfl
      | succ i =>
          have later : n * (i + 1) + j - (block x).length = n * i + j := by
            rw [first, Nat.mul_succ]
            omega
          rw [List.getElem?_append_right (by rw [first, Nat.mul_succ]; omega), later,
            ih fun y hy => hlength y (List.mem_cons_of_mem x hy)]
          rfl

theorem Screen.getElem?_pixels (s : Screen) {r c : Nat} (hr : r < 32) (hc : c < 64) :
    s.pixels[64 * r + c]? = some (s.pixel r c) := by
  have block : ∀ line ∈ s.rows.toList, ((List.range 64).map line.getMsbD).length = 64 := by
    simp
  rw [pixels, getElem?_flatMap_blocks block r hc, pixel, row_of_lt _ hr]
  simp [hr, hc]

namespace Engine

/-- Will the next step report that it wrote to the screen? -/
def paints (e : Engine) : Bool := e.step.result matches .ok true

theorem paints_iff (e : Engine) : e.paints = true ↔ e.step.result = .ok true := by
  unfold paints
  split <;> simp_all

/-- A step reports a change exactly when its instruction is one that paints; those never fail. -/
theorem paints_eq (e : Engine) : e.paints = e.machine.instruction.paints := by
  unfold paints
  rw [step_result]
  rcases Machine.step_cases e.options e.machine with ⟨done, -, hstep⟩ | ⟨fault, fails, hstep⟩
  · rw [hstep]
    cases e.machine.instruction.paints <;> rfl
  · rw [hstep]
    generalize e.machine.instruction = i at fails ⊢
    cases fails <;> rfl

theorem step_shown (e : Engine) :
    e.machine.count.Shown e.paints e.step.engine.machine := by
  rw [step_engine, paints_eq]
  rcases Machine.step_outcome e.options e.machine with ⟨done, hrun, hstep⟩ | ⟨fault, -, hstep⟩
  · rw [hstep]
    exact (Machine.execute_shown hrun).age
  · have silent : e.machine.instruction.paints = false := by
      rw [← paints_eq, paints, step_result, hstep]
    rw [hstep, silent]
    exact .of_eq rfl rfl rfl rfl rfl

theorem perform_shown {e : Engine} {action : Action} (noReset : action ≠ .reset)
    (noStep : action ≠ .step) (noAsk : action ≠ .takeRedraw) :
    e.machine.Shown false (e.perform action).engine.machine := by
  cases action with
  | reset =>
      exact absurd rfl noReset
  | step =>
      exact absurd rfl noStep
  | takeRedraw =>
      exact absurd rfl noAsk
  | load program =>
      obtain ⟨memory, hload⟩ := e.loadInts_engine program
      show e.machine.Shown false (e.loadInts program).engine.machine
      rw [hload]
      exact .of_eq rfl rfl rfl rfl rfl
  | setKeys report =>
      obtain ⟨keypad, hkeys⟩ := e.setKeys_engine report
      show e.machine.Shown false (e.setKeys report).engine.machine
      rw [hkeys]
      exact .of_eq rfl rfl rfl rfl rfl
  | _ =>
      exact .of_eq rfl rfl rfl rfl rfl

theorem perform_counters (e : Engine) {action : Action} (noStep : action ≠ .step) :
    (e.perform action).engine.machine.frames = e.machine.frames ∧
      (e.perform action).engine.machine.cycles = e.machine.cycles := by
  by_cases hreset : action = .reset
  · subst hreset
    exact ⟨rfl, rfl⟩
  · by_cases hask : action = .takeRedraw
    · subst hask
      exact ⟨rfl, rfl⟩
    · have shown := perform_shown (e := e) hreset noStep hask
      exact ⟨shown.frames_eq, shown.cycles_eq⟩

theorem counters_after (e : Engine) (run : List Action) :
    (e.after run).machine.frames = e.machine.frames + (e.starts run).countP paints ∧
      (e.after run).machine.cycles = e.machine.cycles + (e.starts run).length := by
  induction run generalizing e with
  | nil =>
      exact ⟨rfl, rfl⟩
  | cons action rest ih =>
      obtain ⟨hframes, hcycles⟩ := ih (e.perform action).engine
      rw [after_cons, hframes, hcycles]
      by_cases hstep : action = .step
      · subst hstep
        have shown := e.step_shown
        rw [perform_step_engine, starts_step, List.countP_cons, List.length_cons,
          shown.frames_eq, shown.cycles_eq]
        show e.machine.frames + _ + _ = _ ∧ e.machine.cycles + 1 + _ = _
        cases e.paints <;> simp <;> omega
      · rw [starts_cons_of_ne hstep, (e.perform_counters hstep).1, (e.perform_counters hstep).2]
        exact ⟨rfl, rfl⟩

/-- No action of the run resets the machine, and no step of it reports that it painted. -/
def Unpainted (e : Engine) (run : List Action) : Prop :=
  Action.reset ∉ run ∧ ∀ s ∈ e.starts run, s.paints = false

theorem unpainted_concat_iff (e : Engine) (run : List Action) (action : Action) :
    e.Unpainted (run ++ [action]) ↔
      e.Unpainted run ∧ action ≠ .reset ∧ (action = .step → (e.after run).paints = false) := by
  rw [Unpainted, Unpainted, starts_append]
  by_cases hstep : action = .step
  · subst hstep
    simp [or_imp, forall_and, and_assoc]
  · rw [starts_cons_of_ne hstep, starts_nil, List.append_nil]
    have apart : Action.reset ≠ action ↔ action ≠ .reset := ne_comm
    simp [hstep, and_right_comm, apart]

/-- The flag is down after an action that asks for it, and after one that leaves it down. -/
theorem redraw_perform_iff (e : Engine) (action : Action) :
    (e.perform action).engine.machine.redraw = false ↔
      action = .takeRedraw ∨
        e.machine.redraw = false ∧ action ≠ .reset ∧ (action = .step → e.paints = false) := by
  by_cases hreset : action = .reset
  · subst hreset
    have up : (e.perform .reset).engine.machine.redraw = true := rfl
    simp [up]
  · by_cases hstep : action = .step
    · subst hstep
      rw [perform_step_engine, e.step_shown.redraw_eq]
      simp [Machine.count]
    · by_cases hask : action = .takeRedraw
      · subst hask
        have down : (e.perform .takeRedraw).engine.machine.redraw = false := rfl
        simp [down]
      · rw [(perform_shown (e := e) hreset hstep hask).redraw_eq]
        simp [hreset, hstep, hask]

theorem redraw_of_unpainted {e : Engine} (down : e.machine.redraw = false) {run : List Action}
    (quiet : e.Unpainted run) : (e.after run).machine.redraw = false := by
  induction run using List.reverseRecOn with
  | nil =>
      exact down
  | append_singleton run action ih =>
      obtain ⟨quiet, calm⟩ := (unpainted_concat_iff e run action).1 quiet
      rw [after_concat]
      exact (redraw_perform_iff _ action).2 (Or.inr ⟨ih quiet, calm⟩)

/-- The flag, up at first, is down exactly when it was asked for before and nothing was painted or
reset since. -/
theorem redraw_after_iff {e : Engine} (up : e.machine.redraw = true) (run : List Action) :
    (e.after run).machine.redraw = false ↔
      ∃ before later, run = before ++ .takeRedraw :: later ∧
        (e.after (before ++ [.takeRedraw])).Unpainted later := by
  constructor
  · induction run using List.reverseRecOn with
    | nil =>
        intro down
        rw [after_nil, up] at down
        cases down
    | append_singleton run action ih =>
        intro down
        rw [after_concat] at down
        -- the last action was the asking, or the flag was down before it
        rcases (redraw_perform_iff _ action).1 down with rfl | ⟨down, calm⟩
        · exact ⟨run, [], rfl, nofun, nofun⟩
        · obtain ⟨before, later, rfl, quiet⟩ := ih down
          refine ⟨before, later ++ [action], by simp, (unpainted_concat_iff _ _ _).2 ⟨quiet, ?_⟩⟩
          rw [← after_append, List.append_assoc]
          exact calm
  · rintro ⟨before, later, rfl, quiet⟩
    rw [← List.singleton_append, ← List.append_assoc, after_append]
    refine redraw_of_unpainted ?_ quiet
    rw [after_concat]
    rfl

/-- The picture that somebody holds after an action who copies it when a redraw is called for. -/
def copyAfter (e : Engine) (copy : List Bool) : Action → List Bool
  | .takeRedraw => if e.takeRedraw.result then e.takeRedraw.engine.framebuffer else copy
  | _ => copy

/-- The picture that they hold after a run. -/
def copyAfterAll (e : Engine) (copy : List Bool) : List Action → List Bool
  | [] => copy
  | action :: rest => (e.perform action).engine.copyAfterAll (e.copyAfter copy action) rest

/-- While the flag is down, the copy is the picture on the screen. -/
def Current (e : Engine) (copy : List Bool) : Prop :=
  e.machine.redraw = false → copy = e.framebuffer

theorem Current.of_eq {e e' : Engine} {copy : List Bool} {painted : Bool} (h : e.Current copy)
    (hscreen : painted = false → e'.machine.screen = e.machine.screen)
    (hredraw : e'.machine.redraw = (e.machine.redraw || painted)) :
    e'.Current copy := by
  intro down
  rw [hredraw, Bool.or_eq_false_iff] at down
  rw [h down.1, framebuffer, framebuffer, hscreen down.2]

theorem Current.step {e : Engine} {copy : List Bool} (h : e.Current copy) :
    e.step.engine.Current copy :=
  h.of_eq e.step_shown.screen_eq e.step_shown.redraw_eq

theorem Current.arm {e : Engine} {copy : List Bool} (h : e.Current copy) (down : KeySet) :
    (e.arm down).Current copy :=
  h

theorem Current.takeRedraw {e : Engine} {copy : List Bool} (h : e.Current copy) :
    e.takeRedraw.engine.Current (e.copyAfter copy .takeRedraw) := by
  intro _
  show (if e.machine.redraw then e.framebuffer else copy) = e.framebuffer
  cases down : e.machine.redraw with
  | true =>
      rfl
  | false =>
      exact h down

theorem Current.perform {e : Engine} {copy : List Bool} (h : e.Current copy) (action : Action) :
    (e.perform action).engine.Current (e.copyAfter copy action) := by
  by_cases hreset : action = .reset
  · subst hreset
    exact nofun
  · by_cases hstep : action = .step
    · subst hstep
      exact h.step
    · by_cases hask : action = .takeRedraw
      · subst hask
        exact h.takeRedraw
      · have shown := perform_shown (e := e) hreset hstep hask
        have same : e.copyAfter copy action = copy := by
          cases action with
          | takeRedraw =>
              exact absurd rfl hask
          | _ =>
              rfl
        rw [same]
        exact h.of_eq shown.screen_eq shown.redraw_eq

theorem Current.after {e : Engine} {copy : List Bool} (h : e.Current copy) (run : List Action) :
    (e.after run).Current (e.copyAfterAll copy run) := by
  induction run generalizing e copy with
  | nil =>
      exact h
  | cons action rest ih =>
      exact ih (h.perform action)

/-- **The redraw protocol.** Whoever copies the picture whenever a new engine answers that a redraw
is called for holds the current one after each time of asking. A step reports a change exactly when
it clears the screen or draws, and the picture stays as it is when it does not. A redraw is not
called for exactly when it was asked for before and since then nothing was reset or reported to
have changed. The counters are those of the reported changes and of all steps, over resets too. -/
theorem redraw_protocol (options : Options) (random : RandomBytes) (log : Log) :
    let start := boot options random log
    (∀ run copy, start.copyAfterAll copy (run ++ [.takeRedraw]) =
      (start.after (run ++ [.takeRedraw])).framebuffer) ∧
    (∀ e : Engine, e.framebuffer.length = 32 * 64 ∧
      ∀ r c, r < 32 → c < 64 →
        e.framebuffer[64 * r + c]? = some (e.machine.screen.pixel r c)) ∧
    (∀ e : Engine, e.step.result ≠ .ok true → e.step.engine.framebuffer = e.framebuffer) ∧
    (∀ e : Engine, e.step.result = .ok true ↔
      e.machine.instruction = .clearScreen ∨ ∃ x y n, e.machine.instruction = .draw x y n) ∧
    (∀ run, (start.after run).takeRedraw.result = false ↔
      ∃ before later, run = before ++ .takeRedraw :: later ∧
        (start.after (before ++ [.takeRedraw])).Unpainted later) ∧
    ∀ run, (start.after run).machine.frames = (start.starts run).countP paints ∧
      (start.after run).machine.cycles = (start.starts run).length := by
  intro start
  refine ⟨fun run copy => ?_, fun e => ?_, fun e unchanged => ?_, fun e => ?_,
    redraw_after_iff rfl, fun run => ?_⟩
  · have first : start.Current copy := nofun
    have current := first.after (run ++ [.takeRedraw])
    apply current
    rw [after_concat]
    rfl
  · exact ⟨Machine.length_pixels _, fun r c => Screen.getElem?_pixels _⟩
  · have silent : e.paints = false := Bool.eq_false_iff.2 (mt e.paints_iff.1 unchanged)
    rw [framebuffer, framebuffer, e.step_shown.screen_eq silent]
    rfl
  · rw [← paints_iff, paints_eq]
    cases e.machine.instruction <;> simp [Instruction.paints]
  · have counted := counters_after start run
    have frames : start.machine.frames = 0 := rfl
    have cycles : start.machine.cycles = 0 := rfl
    rw [frames, cycles, Nat.zero_add, Nat.zero_add] at counted
    exact counted

/-- An engine that has drawn the glyph of zero in the corner and is about to stall. -/
def glyphDrawn : Engine :=
  (boot {} (.cycle #[]) ⟨.warning, false⟩).after [.load [0xD0, 0x05], .step]

theorem redraw_protocol_glyphDrawn :
    glyphDrawn.framebuffer[64 * 1 + 3]? = some true ∧
    glyphDrawn.step.engine.framebuffer = glyphDrawn.framebuffer := by
  have protocol := redraw_protocol {} (.cycle #[]) ⟨.warning, false⟩
  have lit : glyphDrawn.machine.screen.pixel 1 3 = true := by decide +kernel
  have stalls : glyphDrawn.paints = false := by decide +kernel
  constructor
  · rw [(protocol.2.1 glyphDrawn).2 1 3 (by decide) (by decide), lit]
  · refine protocol.2.2.1 glyphDrawn fun changed => ?_
    rw [← paints_iff, stalls] at changed
    cases changed

end Engine
end ChipEight
