import ChipEight.Frontend.Rom
import ChipEight.Frontend.Tick

/-!
# Events

What each event leads to. Besides the machine's keys, F1 switches tracing, F2 goes to the next
program file, F3 switches the sound, F4 locks the rate, and Escape closes the window.

* `handleAll_cons`: events in a row go on from one another, up to a breakdown.
-/

namespace ChipEight
namespace Frontend

/-- The rate of the timers, in cycles per second. -/
def timerRate : Nat := 60

/-! ### Keys -/

/-- Switch the sound on or off; off also pauses the tone. -/
def toggleSound (f : Frontend) : Turn :=
  if f.soundEnabled then
    { state := { f with soundEnabled := false, playing := false }, requests := [.pause] }
  else { state := { f with soundEnabled := true } }

/-- Lock the rate to that of the timers, or unlock it. -/
def toggleLock (f : Frontend) : Turn :=
  let locked := !f.locked
  let rate := if locked then timerRate else f.setup.rate
  { state := { f with locked }
    requests := [.unschedule .tick, .schedule .tick (.inverse rate)]
    lines := f.engine.log.trace ("CPU rate: " ++ toString rate ++ " Hz") }

/-- A key of the keyboard goes down. -/
def press (f : Frontend) (symbol : Symbol) : Turn :=
  match symbol with
  | .escape => { state := f, requests := [.closeWindow] }
  | .f1 =>
    let reply := f.engine.toggleVerbose
    { state := { f with engine := reply.engine }, lines := reply.lines }
  | .f2 => f.nextRom
  | .f3 => f.toggleSound
  | .f4 => f.toggleLock
  | _ =>
    match symbol.key? with
    | some key =>
      { state := { f with held := f.held ||| .single key, tapped := f.tapped ||| .single key } }
    | none => { state := f }

/-- A key of the keyboard comes up. -/
def release (f : Frontend) (symbol : Symbol) : Turn :=
  match symbol.key? with
  | some key => { state := { f with held := f.held &&& ~~~(.single key) } }
  | none => { state := f }

/-! ### Counters and drawing -/

/-- Publish the counters and start them over. -/
def bench (f : Frontend) (seconds : Binary64) : Turn :=
  if seconds.isZero then { state := f, breakdown := some .zeroTime }
  else
    { state := { f with
        framesLabel := "FPS: " ++ ((Binary64.ofNat f.shown).div seconds).toFixed 1
        cyclesLabel := "Cycles/s: " ++ toString f.ran
        shown := 0
        ran := 0 } }

/-- Draw the window. -/
def draw (f : Frontend) : Turn :=
  { state := { f with shown := f.shown + 1 }
    requests :=
      [.clearWindow, .showImage 0 0, .showLabel f.framesLabel, .showLabel f.cyclesLabel] }

/-- What an event leads to. -/
def handle (f : Frontend) : Event → Turn
  | .tick => f.tick
  | .bench seconds => f.bench seconds
  | .press symbol => f.press symbol
  | .release symbol => f.release symbol
  | .draw => f.draw
  | .close => { state := f, requests := [.releaseTone, .finishClosing] }

/-- What events in a row lead to, up to a breakdown. -/
def handleAll (f : Frontend) (events : List Event) : Turn := go events f #[] #[]
where
  /-- Go on from what events have led to so far. -/
  go : List Event → Frontend → Array Request → Array LogLine → Turn
    | [], f, requests, lines => ⟨f, requests.toList, lines.toList, none⟩
    | event :: rest, f, requests, lines =>
      let turn := f.handle event
      let requests := requests ++ turn.requests
      let lines := lines ++ turn.lines
      match turn.breakdown with
      | none => go rest turn.state requests lines
      | some cause => ⟨turn.state, requests.toList, lines.toList, some cause⟩

theorem handleAll_go (events : List Event) (f : Frontend) (requests : Array Request)
    (lines : Array LogLine) :
    handleAll.go events f requests lines =
      Turn.andThen ⟨f, requests.toList, lines.toList, none⟩ (·.handleAll events) := by
  induction events generalizing f requests lines with
  | nil => simp [handleAll, handleAll.go, Turn.andThen]
  | cons event rest ih =>
    simp only [handleAll, handleAll.go, Turn.andThen]
    cases (f.handle event).breakdown <;> simp [ih, Turn.andThen]

theorem handleAll_nil (f : Frontend) : f.handleAll [] = { state := f } := rfl

theorem handleAll_cons (f : Frontend) (event : Event) (rest : List Event) :
    f.handleAll (event :: rest) = (f.handle event).andThen (·.handleAll rest) := by
  rw [handleAll, handleAll.go]
  cases h : (f.handle event).breakdown with
  | none => simp [handleAll_go, Turn.andThen, h]
  | some cause =>
    simp only [Turn.andThen, h, Option.isSome_some, ↓reduceIte]
    rw [← h]
    simp

end Frontend
end ChipEight
