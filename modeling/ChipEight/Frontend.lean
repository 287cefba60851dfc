import ChipEight.Engine
import ChipEight.FileTree
import ChipEight.Frontend.Keyboard
import ChipEight.Frontend.Oversize
import ChipEight.Frontend.Request
import ChipEight.Number.FixedPoint

/-!
# The frontend

The program behind the window: it feeds the engine keys and cycles, and shows what comes out. This
module holds its state, the events that happen to it, and what an event leads to: a new state,
requests and log lines. A breakdown is what the frontend does not handle, and it ends the event.
-/

namespace ChipEight

/-- What the frontend does not handle. -/
inductive Breakdown where
  /-- A fault that is not the program's. -/
  | fault (cause : Fault)
  /-- Counters published over no time at all. -/
  | zeroTime
  /-- A path with a null character. -/
  | nullInPath
  /-- A picture that cannot be made. -/
  | oversize (cause : Oversize)
  /-- A rate that no double comes near to. -/
  | rateTooLarge
  | noScale
  | noRate
  deriving DecidableEq, Repr

/-- The text of a breakdown. -/
def Breakdown.message : Breakdown → String
  | .fault cause => cause.message
  | .zeroTime => "float division by zero"
  | .nullInPath => "embedded null byte"
  | .oversize cause => cause.message
  | .rateTooLarge => "int too large to convert to float"
  | .noScale => "no scale given"
  | .noRate => "no rate given"

/-- What stays the same while the frontend runs. -/
structure Setup where
  roms : List String
  files : FileReader
  scale : Nat
  /-- Instructions per second. -/
  rate : Nat

/-- The state of the frontend. -/
structure Frontend where
  setup : Setup
  engine : Engine
  /-- Which program file is being played. -/
  romIndex : Nat := 0
  running : Bool := false
  /-- The keys that are down now. -/
  held : KeySet := 0
  /-- The keys that went down since the last tick. -/
  tapped : KeySet := 0
  /-- The small picture that was shown last. -/
  canvas : Canvas := .blank
  soundEnabled : Bool
  /-- Is the tone playing? -/
  playing : Bool := false
  /-- Is the rate locked to that of the timers? -/
  locked : Bool := false
  /-- Frames shown since the counters were published. -/
  shown : Nat := 0
  /-- Cycles run since then. -/
  ran : Nat := 0
  framesLabel : String := "FPS: 0"
  cyclesLabel : String := "Cycles/s: 0"

/-- What happens to the frontend. -/
inductive Event where
  /-- The clock asks for a cycle. -/
  | tick
  /-- The clock asks for the counters, this many seconds after the last time. -/
  | bench (seconds : Binary64)
  | press (symbol : Symbol)
  | release (symbol : Symbol)
  | draw
  | close
  deriving DecidableEq, Repr

/-- The frontend after something happened, and what it asks and says. -/
structure Turn where
  state : Frontend
  requests : List Request := []
  lines : List LogLine := []
  breakdown : Option Breakdown := none

namespace Turn

/-- Go on from a turn, unless it broke down. -/
def andThen (turn : Turn) (go : Frontend → Turn) : Turn :=
  if turn.breakdown.isSome then turn
  else
    let after := go turn.state
    { after with
      requests := turn.requests ++ after.requests
      lines := turn.lines ++ after.lines }

end Turn

end ChipEight
