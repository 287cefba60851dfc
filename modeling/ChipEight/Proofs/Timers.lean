import ChipEight.Proofs.Footprint

/-!
# Timers

A timer runs down by one in each cycle that is completed, and stops at zero. A cycle that fails
leaves it alone. The cycle that sets a timer already lets it run down, and the one that reads it
sees what the cycles before have left.

* `Engine.timer_step`, `Engine.timer_step_of_sets`: what a step does to a timer.
* `Engine.timer_after`: a timer over a run that neither resets the machine nor sets the timer.
* `Engine.timers_run_down`: the timers after any such run, after they were set, and as they are
  read.
-/

namespace ChipEight

/-- The two timers. -/
inductive Timer where
  | delay
  | sound
  deriving DecidableEq, Repr

/-- The words that set the timer, under the mask `F0FF`. -/
def Timer.setter : Timer → Word
  | .delay => 0xF015
  | .sound => 0xF018

namespace Machine

/-- What is left on a timer. -/
def timer (m : Machine) : Timer → Byte
  | .delay => m.delay
  | .sound => m.sound

theorem timer_congr {m m' : Machine} (hdelay : m'.delay = m.delay) (hsound : m'.sound = m.sound)
    (t : Timer) : m'.timer t = m.timer t := by
  cases t with
  | delay =>
      exact hdelay
  | sound =>
      exact hsound

theorem timer_age (m : Machine) (t : Timer) : m.age.timer t = countDown (m.timer t) := by
  cases t <;> rfl

theorem timer_count (m : Machine) (t : Timer) : m.count.timer t = m.timer t := by
  cases t <;> rfl

theorem Confined.timer_eq {w : Word} {m m' : Machine} (h : Confined (.decode w) m m') {t : Timer}
    (unset : w &&& 0xF0FF ≠ t.setter) : m'.timer t = m.timer t := by
  by_contra changed
  cases t with
  | delay =>
      exact unset (h.delay_changed changed)
  | sound =>
      exact unset (h.sound_changed changed)

theorem Acted.timer_eq {o : Options} {m m' : Machine} {action : Action}
    (acted : m.Acted o action m') (noReset : action ≠ .reset) (noStep : action ≠ .step)
    (t : Timer) : m'.timer t = m.timer t := by
  cases acted with
  | reset =>
      exact absurd rfl noReset
  | step =>
      exact absurd rfl noStep
  | takeRedraw =>
      exact timer_congr rfl rfl t
  | load known fits =>
      exact timer_congr rfl rfl t
  | arm flat =>
      unfold Machine.arm
      refine timer_congr ?_ ?_ t
      · rfl
      · rfl
  | stay =>
      rfl

end Machine

namespace Engine

variable {e : Engine} {t : Timer}

/-- A step that does not set the timer lets it run down, unless it fails. -/
theorem timer_step (unset : e.machine.word &&& 0xF0FF ≠ t.setter) :
    (e.step.engine.machine.timer t).toNat = (e.machine.timer t).toNat - e.completes.toNat := by
  unfold completes
  rw [step_result, step_engine]
  rcases Machine.step_outcome e.options e.machine with ⟨done, hrun, hstep⟩ | ⟨fault, -, hstep⟩
  · have confined : Machine.Confined (.decode e.machine.word) e.machine.count done :=
      Machine.execute_confined hrun
    rw [hstep]
    show (done.age.timer t).toNat = (e.machine.timer t).toNat - 1
    rw [Machine.timer_age, toNat_countDown, confined.timer_eq unset, Machine.timer_count]
  · rw [hstep]
    show (e.machine.count.timer t).toNat = _
    rw [Machine.timer_count]
    rfl

/-- A step that sets the timer succeeds and already lets the new value run down. -/
theorem timer_step_of_sets (sets : e.machine.word &&& 0xF0FF = t.setter) :
    e.step.result = .ok false ∧
      (e.step.engine.machine.timer t).toNat =
        (e.machine.v e.machine.word.x).toNat - 1 := by
  rw [step_result, step_engine]
  cases t with
  | delay =>
      have fetched : e.machine.instruction = .setDelay e.machine.word.x :=
        Instruction.decode_withX (by simp [Instruction.table, Timer.setter]) sets
      rw [Machine.step_of_execute fetched rfl]
      exact ⟨rfl, toNat_countDown _⟩
  | sound =>
      have fetched : e.machine.instruction = .setSound e.machine.word.x :=
        Instruction.decode_withX (by simp [Instruction.table, Timer.setter]) sets
      rw [Machine.step_of_execute fetched rfl]
      exact ⟨rfl, toNat_countDown _⟩

/-- A step that reads the delay timer sees it as it was before. -/
theorem step_readDelay (reads : e.machine.word &&& 0xF0FF = 0xF007) :
    e.step.result = .ok false ∧
      e.step.engine.machine.v e.machine.word.x = e.machine.delay := by
  have fetched : e.machine.instruction = .readDelay e.machine.word.x :=
    Instruction.decode_withX (by simp [Instruction.table]) reads
  rw [step_result, step_engine, Machine.step_of_execute fetched rfl]
  refine ⟨rfl, ?_⟩
  rw [Machine.v_age]
  exact (Machine.v_setV _ _ _ _).trans (if_pos rfl)

/-- The run neither resets the machine nor sets the timer. -/
structure Spares (e : Engine) (t : Timer) (run : List Action) : Prop where
  noReset : ∀ action ∈ run, action ≠ .reset
  unset : ∀ s ∈ e.starts run, s.machine.word &&& 0xF0FF ≠ t.setter

/-- How many steps of the run succeed. -/
def completed (e : Engine) (run : List Action) : Nat := (e.starts run).countP completes

theorem completed_step (e : Engine) (rest : List Action) :
    e.completed (.step :: rest) = e.completes.toNat + e.step.engine.completed rest := by
  rw [completed, starts_step, List.countP_cons, ← completed]
  cases e.completes <;> simp [Nat.add_comm]

theorem completed_cons_of_ne {action : Action} (noStep : action ≠ .step) (rest : List Action) :
    e.completed (action :: rest) = (e.perform action).engine.completed rest := by
  rw [completed, starts_cons_of_ne noStep, ← completed]

theorem timer_after {run : List Action} (spares : e.Spares t run) :
    ((e.after run).machine.timer t).toNat = (e.machine.timer t).toNat - e.completed run := by
  induction run generalizing e with
  | nil =>
      rfl
  | cons action rest ih =>
      obtain ⟨noReset, others⟩ := List.forall_mem_cons.1 spares.noReset
      have unset := spares.unset
      rw [after_cons]
      by_cases hstep : action = .step
      · subst hstep
        rw [starts_step, List.forall_mem_cons] at unset
        rw [perform_step_engine, ih ⟨others, unset.2⟩, timer_step unset.1, completed_step,
          Nat.sub_sub]
      · rw [starts_cons_of_ne hstep] at unset
        rw [ih ⟨others, unset⟩, (e.perform_acted action).timer_eq noReset hstep,
          completed_cons_of_ne hstep]

/-- **Timers run down by the completed steps.** Over a run that neither resets the machine nor sets
the timer, each step that succeeds takes one off it while it is above zero, and nothing else does;
a step `Fx15` or `Fx18` puts `Vx` on the timer and takes the first one off. `Fx07` reads what the
steps before it have left on the delay timer, and the sound level is what is left on the sound
timer. -/
theorem timers_run_down (e : Engine) :
    (∀ t run, e.Spares t run →
      ((e.after run).machine.timer t).toNat = (e.machine.timer t).toNat - e.completed run) ∧
    (∀ t run, e.machine.word &&& 0xF0FF = t.setter → e.step.engine.Spares t run →
      e.step.result = .ok false ∧
      ((e.after (.step :: run)).machine.timer t).toNat =
        (e.machine.v e.machine.word.x).toNat - e.step.engine.completed run - 1) ∧
    (∀ run, e.Spares .delay run → (e.after run).machine.word &&& 0xF0FF = 0xF007 →
      let reader := e.after run
      reader.step.result = .ok false ∧
      (reader.step.engine.machine.v reader.machine.word.x).toNat =
        e.machine.delay.toNat - e.completed run) ∧
    ∀ run, ((e.after run).perform .soundLevel).result =
      .ok (.level ((e.after run).machine.timer .sound).toNat) := by
  refine ⟨fun t run => timer_after, fun t run sets spares => ?_, fun run spares reads => ?_,
    fun run => rfl⟩
  · obtain ⟨completes, value⟩ := timer_step_of_sets sets
    refine ⟨completes, ?_⟩
    rw [after_cons, perform_step_engine, timer_after spares, value, Nat.sub_right_comm]
  · intro reader
    obtain ⟨completes, value⟩ := step_readDelay reads
    refine ⟨completes, ?_⟩
    rw [value]
    exact timer_after spares

/-- An engine about to put nine on the delay timer, while the sound timer runs. It returns next, with
nothing to return to. -/
def timed : Engine where
  machine :=
    { memory := .writeAll .blank 0x1FE [0xF3, 0x15, 0x00, 0xEE]
      registers := Registers.zero.set 3 9
      pc := 0x1FE
      sound := 2
      random := .cycle #[] }
  log := ⟨.error, false⟩

/-- After the delay timer is set a step fails, another waits for a key, and a third reads the
timer. -/
theorem timers_run_down_timed :
    let run := [.step, .load [0xF2, 0x0A], .step, .load [0xF2, 0x07]]
    let reader := timed.step.engine.after run
    timed.step.engine.step.result = .error (.stackUnderflow 0x200) ∧
    reader.machine.delay.toNat = 9 - 1 - 1 ∧ reader.machine.sound.toNat = 2 - 2 ∧
    (reader.step.engine.machine.v 2).toNat = 8 - 1 := by
  intro run reader
  obtain ⟨runs, sets, -⟩ := timed.timers_run_down
  obtain ⟨-, -, reads, -⟩ := timed.step.engine.timers_run_down
  have word : timed.machine.word = 0xF315 := Machine.word_of_writeAll rfl (by simp)
  have nine : (timed.machine.v (Word.x 0xF315)).toNat = 9 := by decide
  have eight : timed.step.engine.machine.delay.toNat = 8 := by decide +kernel
  have place : reader.machine.word.x = 2 := by decide +kernel
  have afterwards : timed.step.engine.Spares .delay run := ⟨by simp [run], by decide +kernel⟩
  have one : timed.step.engine.completed run = 1 := by decide +kernel
  have throughout : timed.Spares .sound (.step :: run) := ⟨by simp [run], by decide +kernel⟩
  have two : timed.completed (.step :: run) = 2 := by decide +kernel
  have left := (sets .delay run (by rw [word]; rfl) afterwards).2
  have sound := runs .sound _ throughout
  have seen : (reader.step.engine.machine.v reader.machine.word.x).toNat = _ :=
    (reads run afterwards (by decide +kernel)).2
  rw [word, nine, one, after_cons, perform_step_engine] at left
  rw [two, after_cons, perform_step_engine] at sound
  rw [place, eight, one] at seen
  exact ⟨by decide +kernel, left, sound, seen⟩

end Engine
end ChipEight
