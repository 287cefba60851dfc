/-!
# Options

What a command line can set, how each option is spelled, and the arguments that a command line
stands for.
-/

namespace ChipEight
namespace CommandLine

/-- An option that takes a number. -/
inductive Setting where
  /-- Window pixels for one pixel of the machine. -/
  | scale
  /-- Instructions per second. -/
  | rate
  deriving DecidableEq, Repr

/-- An option that is on or off. -/
inductive Switch where
  | legacyShift
  | strict
  | verbose
  | mute
  deriving DecidableEq, Repr

/-- An option. -/
inductive Choice where
  | help
  | setting (setting : Setting)
  | switch (switch : Switch)
  deriving DecidableEq, Repr

/-- One way to write an option. -/
structure Spelling where
  name : String
  choice : Choice
  deriving DecidableEq, Repr

/-- The short spelling of the only option that has one. -/
def shortHelp : Spelling := ⟨"-h", .help⟩

/-- All spellings, in the order in which candidates are named. -/
def spellings : List Spelling := [
  shortHelp,
  ⟨"--help", .help⟩,
  ⟨"--scale", .setting .scale⟩,
  ⟨"--cpu-hz", .setting .rate⟩,
  ⟨"--legacy-shift", .switch .legacyShift⟩,
  ⟨"--strict", .switch .strict⟩,
  ⟨"--verbose", .switch .verbose⟩,
  ⟨"--mute", .switch .mute⟩]

/-- The name of an option in messages: all its spellings. -/
def Choice.label (choice : Choice) : String :=
  "/".intercalate ((spellings.filter (·.choice == choice)).map (·.name))

/-- What the options set. A number is missing only if the bare separator was given for it. -/
structure Preferences where
  scale : Option Nat := some 10
  rate : Option Nat := some 500
  legacyShift : Bool := false
  strict : Bool := false
  verbose : Bool := false
  mute : Bool := false
  deriving DecidableEq, Repr

namespace Preferences

/-- Turn a switch on. -/
def turnOn (p : Preferences) : Switch → Preferences
  | .legacyShift => { p with legacyShift := true }
  | .strict => { p with strict := true }
  | .verbose => { p with verbose := true }
  | .mute => { p with mute := true }

/-- Set a number. -/
def assign (p : Preferences) (value : Option Nat) : Setting → Preferences
  | .scale => { p with scale := value }
  | .rate => { p with rate := value }

end Preferences

/-- What a command line stands for. -/
structure Arguments extends Preferences where
  /-- The program files, in the order in which they are played. -/
  roms : List String
  deriving DecidableEq, Repr

end CommandLine
end ChipEight
