import ChipEight.Proofs.Requests
import ChipEight.Proofs.Tone

/-!
# Sound that is switched off

Two events ask anything of the tone: a tick that completes a cycle, which knows whether the tone
plays, and F3, which pauses it when it switches the sound off. So a tone that plays is never asked
to play, and none plays while the sound is off.

* `Request.steer`: what a request makes of the tone, if it is one that the tone can be asked.
* `steer_handle`: an event asks the tone for what the frontend then takes it to do.
* `switched_off_is_silent`: the tone and the sound at any point of a run.
-/

namespace ChipEight

/-- Does the tone play after a request? One that plays already cannot be asked to play. -/
def Request.steer (playing : Bool) : Request → Option Bool
  | .play => if playing then none else some true
  | .pause => some false
  | _ => some playing

theorem Request.steer_play {playing playing' : Bool} (h : steer playing .play = some playing') :
    playing = false := by
  cases playing with
  | false =>
      rfl
  | true =>
      simp [steer] at h

namespace Frontend

/-- Each request to play in a list that a tone can be asked finds it silent. -/
theorem silent_of_steer {before later : List Request} {playing : Bool}
    (h : (before ++ .play :: later).foldlM Request.steer false = some playing) :
    before.foldlM Request.steer false = some false := by
  rw [List.foldlM_append] at h
  obtain ⟨middle, hbefore, hlater⟩ := Option.bind_eq_some_iff.1 h
  rw [List.foldlM_cons] at hlater
  obtain ⟨next, hplay, -⟩ := Option.bind_eq_some_iff.1 hlater
  rw [hbefore, Request.steer_play hplay]

theorem steer_imageRequests (f : Frontend) (playing : Bool) :
    f.imageRequests.foldlM Request.steer playing = some playing := by
  unfold imageRequests
  split <;> simp [Request.steer]

theorem steer_soundRequests (f : Frontend) :
    f.soundRequests.foldlM Request.steer f.playing = some f.sounds := by
  unfold soundRequests
  cases f.playing <;> cases f.sounds <;> simp [Request.steer]

theorem steer_toggleSound (f : Frontend) :
    f.toggleSound.requests.foldlM Request.steer f.playing = some f.toggleSound.state.playing := by
  unfold toggleSound
  split <;> simp [Request.steer]

section Handled

variable {f f' : Frontend} {event : Event} {requests : List Request}

theorem Asked.steer_eq (h : Asked f event requests) (incomplete : ¬ (event = .tick ∧ f.Completes))
    (other : event ≠ .press .f3) (playing : Bool) :
    requests.foldlM Request.steer playing = some playing := by
  cases h with
  | completed completes =>
      exact absurd ⟨rfl, completes⟩ incomplete
  | muted =>
      exact absurd rfl other
  | failed =>
      split <;> simp [Request.steer]
  | advanced title =>
      cases title <;> simp [Request.steer]
  | _ =>
      simp [Request.steer]

theorem Handled.playing_eq (h : Handled f event f') (incomplete : ¬ (event = .tick ∧ f.Completes))
    (other : event ≠ .press .f3) : f'.playing = f.playing := by
  cases h with
  | completed completes =>
      exact absurd ⟨rfl, completes⟩ incomplete
  | muted =>
      exact absurd rfl other
  | _ =>
      simp only [feedKeys]

theorem Handled.soundEnabled_eq (h : Handled f event f') :
    f'.soundEnabled = if event = .press .f3 then !f.soundEnabled else f.soundEnabled := by
  cases h with
  | @pressed symbol key meant =>
      have ordinary : symbol ≠ .f3 := Symbol.ne_of_key? meant rfl
      simp [ordinary]
  | _ =>
      simp [cycled, noted, stepped, feedKeys]

end Handled

theorem steer_handle (f : Frontend) (event : Event) :
    (f.handle event).requests.foldlM Request.steer f.playing =
      some (f.handle event).state.playing := by
  by_cases completes : event = .tick ∧ f.Completes
  · obtain ⟨rfl, completes⟩ := completes
    have before : f.playing = f.feedKeys.stepped.playing := by
      simp only [stepped, feedKeys]
    rw [handle, tick_of_completes completes, List.foldlM_append, steer_imageRequests,
      Option.bind_eq_bind, Option.bind_some, before, steer_soundRequests, cycled]
  · by_cases switches : event = .press .f3
    · subst switches
      exact f.steer_toggleSound
    · rw [(f.handle_asked event).steer_eq completes switches,
        (f.handle_handled event).playing_eq completes switches]

theorem steer_openWindow (f : Frontend) :
    f.openWindow.requests.foldlM Request.steer f.playing = some f.openWindow.state.playing := by
  obtain ⟨title, requests⟩ := f.requests_openWindow
  rw [requests, playing_openWindow]
  cases title <;> cases f.openWindow.breakdown <;> simp [buildRequests, Request.steer]

theorem soundEnabled_openWindow (f : Frontend) :
    f.openWindow.state.soundEnabled = f.soundEnabled := by
  obtain ⟨memory, running, hstate, -⟩ := f.openWindow_eq
  rw [hstate]

theorem steer_after (f : Frontend) (events : List Event) :
    (f.openWindow.requests ++ f.openWindow.state.requestsAfter events).foldlM Request.steer
        f.playing =
      some (f.openWindow.state.after events).playing := by
  induction events using List.reverseRecOn with
  | nil =>
      rw [requestsAfter, List.append_nil, after, steer_openWindow]
  | append_singleton events event ih =>
      rw [requestsAfter_concat, after_concat, ← List.append_assoc, List.foldlM_append, ih]
      exact steer_handle _ event

/-- **Switched off is silent.** At any point of a run of a window, built at whatever scale, the tone
plays only with the sound on. What was asked of it until then has left it playing or silent as the
frontend has it, and each request to play found it silent. The sound is as it was at the start,
switched over once for each press of F3. -/
theorem switched_off_is_silent (arguments : CommandLine.Arguments) (files : FileReader)
    (random : RandomBytes) (scale : Nat) (events : List Event) :
    let opened := (unopened arguments files random scale).openWindow
    let f := opened.state.after events
    let requests := opened.requests ++ opened.state.requestsAfter events
    (f.playing = true → f.soundEnabled = true) ∧
    requests.foldlM Request.steer false = some f.playing ∧
    (∀ before later, requests = before ++ .play :: later →
      before.foldlM Request.steer false = some false) ∧
    f.soundEnabled = not^[events.count (.press .f3)] (!arguments.mute) := by
  intro opened f requests
  have audible : opened.state.Audible := by
    simp [opened, Audible, playing_openWindow, unopened]
  have started : opened.state.soundEnabled = !arguments.mute := soundEnabled_openWindow _
  have steered : requests.foldlM Request.steer false = some f.playing :=
    steer_after (unopened arguments files random scale) events
  refine ⟨audible_after audible events, steered, fun before later split => ?_, ?_⟩
  · rw [split] at steered
    exact silent_of_steer steered
  · rw [← started]
    exact flips_after (fun _ _ _ handled => handled.soundEnabled_eq) _ events

/-- The tone has played for two ticks when F3 switches the sound off; a third tick leaves it silent,
over a sound timer that still runs. -/
theorem switched_off_is_silent_buzzing :
    let f := buzzing.state.after [.tick, .tick, .press .f3, .tick]
    f.soundEnabled = false ∧ f.playing = false ∧ 0 < f.engine.soundLevel := by
  intro f
  obtain ⟨audible, -, -, switched⟩ :=
    switched_off_is_silent buzzer buzzerFiles (.cycle #[]) 10 [.tick, .tick, .press .f3, .tick]
  rw [← buzzing] at audible switched
  have off : f.soundEnabled = false := switched.trans (by decide)
  refine ⟨off, ?_, by decide +kernel⟩
  rw [← Bool.not_eq_true]
  intro playing
  have on : f.soundEnabled = true := audible playing
  rw [off] at on
  cases on

end Frontend
end ChipEight
