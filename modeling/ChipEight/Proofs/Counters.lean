import ChipEight.Proofs.Stopped
import Mathlib.Algebra.GroupWithZero.Nat

/-!
# The counters on the window

The frontend counts the cycles it completed and the frames it showed, and starts both counts over
when it publishes them. A tick that is cut short counts for nothing, and counters over no time at all
are not published; so what was published and what has been counted since make up the whole run.

* `Moment`: an event of a run with the frontend that it happens to.
* `balance_after`: what a counter has gained is what was settled and what it holds.
* `counters_conserved`: the two counters and the machine's count of cycles at any point of a run.
-/

namespace ChipEight

/-- An event and the frontend that it happens to. -/
structure Moment where
  frontend : Frontend
  event : Event

namespace Moment

/-- A cycle is run. -/
def runs (m : Moment) : Bool := m.event == .tick && m.frontend.running

/-- The cycle succeeds that the frontend would run now. -/
def succeeds (m : Moment) : Bool := m.frontend.feedKeys.engine.step.result.isOk

/-- A cycle is run and completed. -/
def completes (m : Moment) : Bool := m.runs && m.succeeds

/-- A cycle is run and fails. -/
def fails (m : Moment) : Bool := m.runs && !m.succeeds

/-- The window is drawn. -/
def draws (m : Moment) : Bool := m.event == .draw

/-- The counters are published. -/
def publishes (m : Moment) : Bool :=
  match m.event with
  | .bench seconds => (m.frontend.bench seconds).breakdown.isNone
  | _ => false

theorem completes_iff (m : Moment) :
    m.completes = true ↔ m.event = .tick ∧ m.frontend.Completes := by
  unfold completes runs succeeds Frontend.Completes
  cases m.frontend.feedKeys.engine.step.result <;> simp [Except.isOk, Except.toBool]

theorem publishes_eq_false {f : Frontend} {event : Event}
    (other : ∀ seconds, event ≠ .bench seconds) : publishes ⟨f, event⟩ = false := by
  unfold publishes
  split
  next seconds benches =>
    exact absurd benches (other seconds)
  next =>
    rfl

theorem countP_runs (moments : List Moment) :
    moments.countP runs = moments.countP completes + moments.countP fails := by
  rw [List.countP_eq_countP_filter_add moments runs succeeds, List.countP_filter,
    List.countP_filter]
  rfl

end Moment

namespace Frontend

/-- The events of a run, each with the frontend that it happens to. -/
def moments (f : Frontend) : List Event → List Moment
  | [] => []
  | event :: rest => ⟨f, event⟩ :: (f.handle event).state.moments rest

theorem countP_draws (f : Frontend) (events : List Event) :
    (f.moments events).countP Moment.draws = events.count .draw := by
  induction events generalizing f with
  | nil =>
      simp [moments]
  | cons event rest ih =>
      rw [moments, List.countP_cons, List.count_cons, ih]
      simp [Moment.draws]

/-- A counter goes up by one at some events and is settled at others, where it starts over. -/
theorem balance_after (counter : Frontend → Nat) (gains settles : Moment → Bool)
    (step : ∀ f event,
      (if settles ⟨f, event⟩ then counter f else 0) + counter (f.handle event).state =
        counter f + (gains ⟨f, event⟩).toNat)
    (f : Frontend) (events : List Event) :
    (((f.moments events).filter settles).map fun m => counter m.frontend).sum +
        counter (f.after events) =
      counter f + (f.moments events).countP gains := by
  induction events generalizing f with
  | nil =>
      simp [moments, after]
  | cons event rest ih =>
      have first := step f event
      have later := ih (f.handle event).state
      rw [moments, after, List.filter_cons, List.countP_cons]
      cases hgains : gains ⟨f, event⟩ <;> cases hsettles : settles ⟨f, event⟩ <;>
        simp [hgains, hsettles] at first ⊢ <;> omega

section Handled

variable {f f' : Frontend} {event : Event}

theorem Handled.ran_eq (h : Handled f event f') (other : ∀ seconds, event ≠ .bench seconds) :
    f'.ran = f.ran + (Moment.completes ⟨f, event⟩).toNat := by
  cases h with
  | completed completes =>
      simp [completes, (Moment.completes_iff ⟨f, .tick⟩).2, cycled, noted, stepped, feedKeys]
  | stopped idle =>
      simp [Moment.completes, Moment.runs, idle, feedKeys]
  | failed running hfault =>
      have failing : Moment.succeeds ⟨f, .tick⟩ = false := by
        simp [Moment.succeeds, hfault, Except.isOk, Except.toBool]
      simp [Moment.completes, failing, feedKeys]
  | published seconds =>
      exact absurd rfl (other seconds)
  | _ =>
      simp [Moment.completes, Moment.runs]

theorem Handled.shown_eq (h : Handled f event f') (other : ∀ seconds, event ≠ .bench seconds) :
    f'.shown = f.shown + (Moment.draws ⟨f, event⟩).toNat := by
  cases h with
  | published seconds =>
      exact absurd rfl (other seconds)
  | _ =>
      simp [Moment.draws, cycled, noted, stepped, feedKeys]

theorem Handled.cycles_eq (h : Handled f event f') (other : event ≠ .tick) :
    f'.engine.machine.cycles = f.engine.machine.cycles := by
  cases h with
  | stopped | completed | failed =>
      exact absurd rfl other
  | _ =>
      simp [Machine.reset, Engine.toggleVerbose, Engine.setVerbose]

end Handled

theorem ran_handle (f : Frontend) (event : Event) :
    (if Moment.publishes ⟨f, event⟩ then f.ran else 0) + (f.handle event).state.ran =
      f.ran + (Moment.completes ⟨f, event⟩).toNat := by
  by_cases benches : ∃ seconds, event = .bench seconds
  · obtain ⟨seconds, rfl⟩ := benches
    simp only [handle, Moment.publishes, Moment.completes, Moment.runs, bench]
    cases seconds.isZero <;> simp
  · rw [not_exists] at benches
    rw [Moment.publishes_eq_false benches, (f.handle_handled event).ran_eq benches]
    simp

theorem shown_handle (f : Frontend) (event : Event) :
    (if Moment.publishes ⟨f, event⟩ then f.shown else 0) + (f.handle event).state.shown =
      f.shown + (Moment.draws ⟨f, event⟩).toNat := by
  by_cases benches : ∃ seconds, event = .bench seconds
  · obtain ⟨seconds, rfl⟩ := benches
    simp only [handle, Moment.publishes, Moment.draws, bench]
    cases seconds.isZero <;> simp
  · rw [not_exists] at benches
    rw [Moment.publishes_eq_false benches, (f.handle_handled event).shown_eq benches]
    simp

theorem cycles_handle (f : Frontend) (event : Event) :
    (f.handle event).state.engine.machine.cycles =
      f.engine.machine.cycles + (Moment.runs ⟨f, event⟩).toNat := by
  by_cases ticks : event = .tick
  · subst ticks
    cases running : f.running with
    | true =>
        simp [handle, cycles_tick running, Moment.runs, running]
    | false =>
        simp [handle, tick, Moment.runs, running, feedKeys, Engine.arm, Machine.cycles_arm]
  · rw [(f.handle_handled event).cycles_eq ticks]
    simp [Moment.runs, ticks]

/-- The counters of the window and the machine stand at zero when the window has been built. -/
theorem counters_openWindow (arguments : CommandLine.Arguments) (files : FileReader)
    (random : RandomBytes) (scale : Nat) :
    let opened := (unopened arguments files random scale).openWindow
    opened.state.ran = 0 ∧ opened.state.shown = 0 ∧ opened.state.engine.machine.cycles = 0 := by
  obtain ⟨memory, running, hstate, -⟩ := (unopened arguments files random scale).openWindow_eq
  simp only [hstate]
  exact ⟨rfl, rfl, rfl⟩

/-- **The counters lose nothing and count nothing twice.** At any point of a run of a window, built
at whatever scale, the cycle counts published so far and the one that stands make up the ticks that
completed a cycle, the frame counts published and the one that stands make up the times that the
window was drawn, and the machine has counted the ticks that completed a cycle and those whose cycle
failed. Publishing over no time at all breaks down and leaves everything as it was; over any other
time it shows the two counts and starts them over. -/
theorem counters_conserved (arguments : CommandLine.Arguments) (files : FileReader)
    (random : RandomBytes) (scale : Nat) (events : List Event) :
    let opened := (unopened arguments files random scale).openWindow
    let f := opened.state.after events
    let past := opened.state.moments events
    let published := (past.filter Moment.publishes).map Moment.frontend
    (published.map ran).sum + f.ran = past.countP Moment.completes ∧
    f.engine.machine.cycles = past.countP Moment.completes + past.countP Moment.fails ∧
    (published.map shown).sum + f.shown = events.count .draw ∧
    ∀ seconds,
      (seconds.isZero = true →
        (f.handle (.bench seconds)).breakdown = some .zeroTime ∧
        (f.handle (.bench seconds)).state = f) ∧
      (seconds.isZero = false →
        let f' := (f.handle (.bench seconds)).state
        (f.handle (.bench seconds)).breakdown = none ∧
        f'.cyclesLabel = "Cycles/s: " ++ toString f.ran ∧
        f'.framesLabel = "FPS: " ++ ((Binary64.ofNat f.shown).div seconds).toFixed 1 ∧
        f'.ran = 0 ∧ f'.shown = 0) := by
  intro opened f past published
  obtain ⟨noCycles, noFrames, bare⟩ := counters_openWindow arguments files random scale
  refine ⟨?_, ?_, ?_, fun seconds => ⟨fun zero => ?_, fun nonzero => ?_⟩⟩
  · have balance := balance_after ran Moment.completes Moment.publishes ran_handle opened.state events
    rw [noCycles, Nat.zero_add] at balance
    rw [← balance, List.map_map]
    rfl
  · have balance := balance_after (fun g => g.engine.machine.cycles) Moment.runs
      (fun _ => false) (fun g event => by simp [cycles_handle g event]) opened.state events
    rw [bare, Nat.zero_add, Moment.countP_runs] at balance
    simpa using balance
  · have balance := balance_after shown Moment.draws Moment.publishes shown_handle opened.state events
    rw [noFrames, Nat.zero_add, countP_draws] at balance
    rw [← balance, List.map_map]
    rfl
  · simp [handle, bench, zero]
  · simp [handle, bench, nonzero]

/-- A program whose second instruction returns from a subroutine that was never called. -/
def stray : CommandLine.Arguments := { roms := ["STRAY"] }

/-- The program loads 5 into a register and returns. -/
def strayFiles : FileReader := fun _ => .ok [0x60, 0x05, 0x00, 0xEE]

/-- The frontend as it starts to play the program. -/
def straying : Turn := (unopened stray strayFiles (.cycle #[]) 10).openWindow

/-- One cycle is completed and published, the next one fails and is counted by the machine alone; the
tick after it runs none. -/
theorem counters_conserved_straying :
    let events : List Event := [.tick, .draw, .bench .one, .tick, .draw, .tick, .draw]
    (straying.state.after events).ran = 0 ∧
    (straying.state.after events).engine.machine.cycles = 2 ∧
    (straying.state.after events).shown = 2 := by
  intro events
  obtain ⟨cycles, counted, frames, -⟩ :=
    counters_conserved stray strayFiles (.cycle #[]) 10 events
  rw [← straying] at cycles counted frames
  have completed : (straying.state.moments events).countP Moment.completes = 1 := by
    decide +kernel
  have failed : (straying.state.moments events).countP Moment.fails = 1 := by
    decide +kernel
  have published :
      (((straying.state.moments events).filter Moment.publishes).map Moment.frontend).map
        (fun g => (g.ran, g.shown)) = [(1, 1)] := by
    decide +kernel
  obtain ⟨g, single, shape⟩ := List.map_eq_singleton_iff.1 published
  obtain ⟨gran, gshown⟩ := Prod.mk.inj shape
  rw [single, completed] at cycles
  rw [completed, failed] at counted
  rw [single] at frames
  have drawn : events.count .draw = 3 := by decide
  simp only [List.map_cons, List.map_nil, List.sum_cons, List.sum_nil, gran, gshown, drawn]
    at cycles frames
  exact ⟨by omega, counted, by omega⟩

end Frontend
end ChipEight
