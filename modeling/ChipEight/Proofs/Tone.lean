import ChipEight.Proofs.Effect
import ChipEight.Proofs.Events

/-!
# The tone

The tone is to play while the sound is on and the sound timer runs. A tick that completes a cycle
sees to that. A tick that does not leaves the tone alone, and going to the next program file stops
the sound timer but not the tone. So the tone gets stuck where no cycle follows.

* `Stuck`: the tone plays though it should not; `Handled.stuck_iff` says what one event does to it.
* `tone_stuck_iff`: ticks that complete a cycle set the tone right, and it is stuck between going
  to the next file while it plays and the first such tick or switch of the sound.
* `tone_follows_timer_fails`: a run that leaves the tone stuck.
-/

namespace ChipEight

/-- A step that fails leaves the sound timer where it is. -/
theorem Engine.soundLevel_step_of_error {e : Engine} {fault : Fault}
    (h : e.step.result = .error fault) : e.step.engine.soundLevel = e.soundLevel := by
  rw [step_result] at h
  rw [step_engine, soundLevel, Machine.step_fault h]
  rfl

namespace Frontend

/-- The tone plays though the sound is off or the sound timer does not run. -/
def Stuck (f : Frontend) : Prop :=
  f.playing = true ∧ ¬ (f.soundEnabled = true ∧ 0 < f.engine.soundLevel)

instance (f : Frontend) : Decidable f.Stuck := inferInstanceAs (Decidable (_ ∧ _))

/-- The tone plays only with the sound on. -/
def Audible (f : Frontend) : Prop := f.playing = true → f.soundEnabled = true

theorem sounds_iff (f : Frontend) :
    f.sounds = true ↔ f.soundEnabled = true ∧ 0 < f.engine.soundLevel := by
  simp [sounds]

theorem sounds_playing (f : Frontend) (playing : Bool) :
    ({ f with playing } : Frontend).sounds = f.sounds :=
  rfl

theorem playing_cycled (f : Frontend) : f.cycled.playing = f.cycled.sounds := by
  rw [cycled, sounds_playing f.feedKeys.stepped.noted, sounds_noted]

theorem stuck_feedKeys (f : Frontend) : f.feedKeys.Stuck ↔ f.Stuck := by
  simp only [Stuck, feedKeys, Engine.soundLevel, Engine.arm, Machine.arm]

theorem audible_feedKeys (f : Frontend) : f.feedKeys.Audible ↔ f.Audible := by
  simp only [Audible, feedKeys]

theorem not_stuck_cycled (f : Frontend) : ¬ f.cycled.Stuck := by
  rintro ⟨playing, misplaced⟩
  rw [playing_cycled, sounds_iff] at playing
  exact misplaced playing

theorem Completes.result_ne {f : Frontend} (h : f.Completes) (fault : Fault) :
    f.feedKeys.engine.step.result ≠ .error fault := by
  obtain ⟨-, painted, hresult⟩ := h
  simp [hresult]

section Handled

variable {f f' : Frontend} {event : Event}

theorem Handled.audible (h : Handled f event f') (audible : f.Audible) : f'.Audible := by
  cases h with
  | completed =>
      rw [Audible, playing_cycled, sounds_iff]
      exact And.left
  | muted =>
      simp [Audible]
  | stopped =>
      exact (audible_feedKeys f).2 audible
  | failed =>
      simpa only [Audible] using (audible_feedKeys f).2 audible
  | _ =>
      simpa only [Audible] using audible

theorem Handled.stuck_iff (h : Handled f event f') (audible : f.Audible) :
    f'.Stuck ↔
      (event = .press .f2 ∧ f.playing = true) ∨
        f.Stuck ∧ ¬ (event = .press .f3 ∨ event = .tick ∧ f.Completes) := by
  cases h with
  | stopped idle =>
      have incomplete : ¬ f.Completes := fun h => by simp [h.1] at idle
      simp [incomplete, stuck_feedKeys]
  | completed h =>
      simp [not_stuck_cycled, h]
  | failed running hfault =>
      have incomplete : ¬ f.Completes := fun h => h.result_ne _ hfault
      simp only [Stuck, Engine.soundLevel_step_of_error hfault, reduceCtorEq, incomplete, false_and,
        false_or, and_false, or_false, not_false_eq_true, and_true]
      exact stuck_feedKeys f
  | @pressed symbol key meant =>
      have ordinary : symbol ≠ .f2 ∧ symbol ≠ .f3 :=
        ⟨Symbol.ne_of_key? meant rfl, Symbol.ne_of_key? meant rfl⟩
      simp [Stuck, ordinary]
  | advanced =>
      -- The reset stops the sound timer, so the tone is stuck if it plays at all.
      simp only [Stuck, Engine.soundLevel, Machine.reset]
      grind
  | muted =>
      -- Switching the sound off pauses the tone, and it cannot have played with the sound off.
      have silent : ¬ (f.playing = true ∧ f.soundEnabled = false) := by
        rintro ⟨playing, off⟩
        simp [audible playing] at off
      simp [Stuck, silent]
  | traced =>
      have unchanged : f.engine.toggleVerbose.engine.soundLevel = f.engine.soundLevel := rfl
      simp [Stuck, unchanged]
  | _ =>
      simp [Stuck]

end Handled

theorem playing_openWindow (f : Frontend) : f.openWindow.state.playing = f.playing := by
  obtain ⟨memory, running, hstate, -⟩ := f.openWindow_eq
  rw [hstate]

theorem audible_after {f : Frontend} (audible : f.Audible) (events : List Event) :
    (f.after events).Audible :=
  after_induction (fun g event audible => (g.handle_handled event).audible audible) audible events

/-- **When the tone is right and when it is stuck.** At whatever scale the window is built, after a
tick that completes a cycle the tone plays exactly if the sound is on and the sound timer runs. At
any point of a run it plays though it should not exactly if the frontend went to the next program
file while it played, and since then no tick has completed a cycle and nobody has switched the
sound. -/
theorem tone_stuck_iff (arguments : CommandLine.Arguments) (files : FileReader)
    (random : RandomBytes) (scale : Nat) (events : List Event) :
    let opened := (unopened arguments files random scale).openWindow
    ((opened.state.after events).Completes →
      ((opened.state.after events).tick.state.playing = true ↔
        (opened.state.after events).tick.state.soundEnabled = true ∧
          0 < (opened.state.after events).tick.state.engine.soundLevel)) ∧
    ((opened.state.after events).Stuck ↔
      Lasting
        (fun before event => event = .press .f2 ∧ (opened.state.after before).playing = true)
        (fun before event =>
          event = .press .f3 ∨ event = .tick ∧ (opened.state.after before).Completes)
        events) := by
  intro opened
  have silent : opened.state.playing = false := playing_openWindow _
  constructor
  · intro completes
    rw [tick_of_completes completes, playing_cycled, sounds_iff]
  · have unstuck : ¬ opened.state.Stuck := by
      simp [Stuck, silent]
    have audible : opened.state.Audible := by
      simp [Audible, silent]
    exact lasting_after_iff Stuck unstuck
      (fun past _ _ handled => handled.stuck_iff (audible_after audible past)) events

/-- A program that sounds the tone for 255 cycles, and a file that does not exist. -/
def buzzer : CommandLine.Arguments := { roms := ["TONE", "GONE"] }

/-- The program loads 255 into the sound timer and loops. -/
def buzzerFiles : FileReader := fun path =>
  if path = "TONE" then .ok [0x60, 0xFF, 0xF0, 0x18, 0x12, 0x04] else .error .missing

/-- The frontend as it starts to play the program. -/
def buzzing : Turn := (unopened buzzer buzzerFiles (.cycle #[]) 10).openWindow

theorem tone_stuck_iff_buzzing :
    (buzzing.state.after [.tick]).tick.state.playing = true ∧
    ¬ (buzzing.state.after [.tick]).tick.state.Stuck ∧
    Lasting
      (fun before event => event = .press .f2 ∧ (buzzing.state.after before).playing = true)
      (fun before event =>
        event = .press .f3 ∨ event = .tick ∧ (buzzing.state.after before).Completes)
      [.tick, .tick, .press .f2, .tick] := by
  have completes : (buzzing.state.after [.tick]).Completes :=
    ⟨by decide +kernel, false, by decide +kernel⟩
  have sounding : (buzzing.state.after [.tick]).tick.state.soundEnabled = true ∧
      0 < (buzzing.state.after [.tick]).tick.state.engine.soundLevel := by
    decide +kernel
  have stuck : (buzzing.state.after [.tick, .tick, .press .f2, .tick]).Stuck := by
    decide +kernel
  have right := (tone_stuck_iff buzzer buzzerFiles (.cycle #[]) 10 [.tick]).1
  have stuck_iff :=
    (tone_stuck_iff buzzer buzzerFiles (.cycle #[]) 10 [.tick, .tick, .press .f2, .tick]).2
  rw [← buzzing] at right stuck_iff
  refine ⟨(right completes).2 sounding, ?_, stuck_iff.1 stuck⟩
  rintro ⟨-, misplaced⟩
  exact misplaced sounding

/-- The next file cannot be loaded: the tone goes on over a sound timer at zero, tick after tick. -/
theorem tone_follows_timer_fails :
    ∃ available opened, start available buzzer buzzerFiles (.cycle #[]) = .ok opened ∧
      (opened.state.after [.tick, .tick, .press .f2]).tick.breakdown = none ∧
      (opened.state.after [.tick, .tick, .press .f2]).tick.state.playing = true ∧
      (opened.state.after [.tick, .tick, .press .f2]).tick.state.engine.soundLevel = 0 :=
  ⟨1 <<< 20, buzzing, start_eq_ok_iff.2 ⟨10, rfl, by decide, rfl, by decide +kernel, rfl⟩,
    by decide +kernel⟩

end Frontend
end ChipEight
