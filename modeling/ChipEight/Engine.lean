import ChipEight.Keypad.Report
import ChipEight.Log
import ChipEight.Machine.Step

/-!
# The engine

A machine with its options and its log. Each call gives back the engine after it, its result, and
the lines that it logged.
-/

namespace ChipEight

/-- A machine, how it treats programs, and where it logs. -/
structure Engine where
  options : Options := {}
  machine : Machine
  log : Log

/-- What a call gives back. -/
structure Reply (α : Type) where
  engine : Engine
  result : α
  lines : List LogLine := []

namespace Engine

/-- A new engine. -/
def boot (options : Options) (random : RandomBytes) (log : Log) : Engine :=
  ⟨options, .boot random, log⟩

/-- The engine with its machine reset. -/
def reset (e : Engine) : Engine := { e with machine := e.machine.reset }

/-- Place a program in memory. The machine is expected to have been reset before. -/
def load (e : Engine) (program : List Byte) : Reply (Except Refusal Unit) :=
  if Memory.capacity < program.length then ⟨e, .error (.tooLarge program.length), []⟩
  else
    let memory := e.machine.memory.writeAll Memory.programStart program
    { engine := { e with machine := { e.machine with memory } }
      result := .ok ()
      lines := e.log.trace ("Loaded program: " ++ toString program.length ++ " bytes") }

/-- Place a program that is given as integers. -/
def loadInts (e : Engine) (program : List Int) : Reply (Except Refusal Unit) :=
  match bytesOfInts program with
  | .ok bytes => e.load bytes
  | .error cause => ⟨e, .error (.notBytes cause), []⟩

/-- Place a program of so many bytes that are all the same. -/
def fill (e : Engine) (byte : Int) (count : Nat) : Reply (Except Refusal Unit) :=
  match byteOfInt byte with
  | .error cause => ⟨e, .error (.notBytes cause), []⟩
  | .ok b =>
    if Memory.capacity < count then ⟨e, .error (.tooLarge count), []⟩
    else e.load (List.replicate count b)

theorem fill_eq_load (e : Engine) (b : Byte) (count : Nat) :
    e.fill b.toNat count = e.load (List.replicate count b) := by
  rw [fill, byteOfInt_toNat]
  by_cases h : Memory.capacity < count <;> simp [load, h]

/-- Arm the keys that are down. -/
def arm (e : Engine) (down : KeySet) : Engine := { e with machine := e.machine.arm down }

/-- Arm the keys that a report says are down. -/
def setKeys (e : Engine) (report : KeyReport) : Reply (Except Refusal Unit) :=
  match report.keys? with
  | .ok down => ⟨e.arm down, .ok (), []⟩
  | .error refusal => ⟨e, .error refusal, []⟩

/-- Was the screen written to since this was last asked? -/
def takeRedraw (e : Engine) : Reply Bool :=
  ⟨{ e with machine := e.machine.noteRedraw }, e.machine.redraw, []⟩

/-- The pixels of the screen, row after row. -/
def framebuffer (e : Engine) : List Bool := e.machine.screen.pixels

/-- The sound timer. -/
def soundLevel (e : Engine) : Nat := e.machine.sound.toNat

/-- Run one cycle: the trace line comes first, then the report of a stall. -/
def step (e : Engine) : Reply (Except Fault Bool) :=
  let stalled := match e.machine.stall? e.options with
    | some fault => e.log.error fault.message
    | none => []
  let lines := e.log.trace e.machine.traceLine ++ stalled
  let stepped := e.machine.step e.options
  { engine := { e with machine := stepped.1 }, result := stepped.2, lines }

/-- Switch tracing. -/
def setVerbose (e : Engine) (on : Bool) : Engine := { e with log := e.log.setVerbose on }

/-- Switch tracing over, and tell the new state. -/
def toggleVerbose (e : Engine) : Reply Bool :=
  let switched := e.setVerbose (!e.log.tracing)
  ⟨switched, switched.log.tracing, switched.log.announce⟩

/-- How a run went: the cycles that were completed and how many of them wrote to the screen. -/
structure Tally where
  cycles : Nat := 0
  frames : Nat := 0
  deriving DecidableEq, Repr

/-- Run cycles until as many are done or one fails. -/
def run (e : Engine) (cycles : Nat) : Reply (Except Fault Tally) := go cycles e {} #[]
where
  /-- Go on with a run that has come so far. -/
  go : Nat → Engine → Tally → Array LogLine → Reply (Except Fault Tally)
    | 0, e, tally, lines => ⟨e, .ok tally, lines.toList⟩
    | n + 1, e, tally, lines =>
      let reply := e.step
      let lines := lines ++ reply.lines
      match reply.result with
      | .ok painted =>
        go n reply.engine ⟨tally.cycles + 1, tally.frames + painted.toNat⟩ lines
      | .error fault => ⟨reply.engine, .error fault, lines.toList⟩

end Engine

end ChipEight
