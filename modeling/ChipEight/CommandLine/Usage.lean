import ChipEight.CommandLine.Option
import ChipEight.Text.Quoted

/-!
# Usage texts

How a command line can end without running a program, and what is then written where.
-/

namespace ChipEight
namespace CommandLine

/-- Why a command line is refused. -/
inductive UsageError where
  /-- An abbreviation of several options. -/
  | ambiguous (argument : String) (candidates : List String)
  | missingValue (setting : Setting)
  /-- A value given to an option that takes none. -/
  | ignoredValue (choice : Choice) (value : String)
  | notAnInteger (setting : Setting) (value : String)
  | notPositive (setting : Setting) (value : String)
  | missingRoms
  | unrecognized (arguments : List String)
  deriving DecidableEq, Repr

/-- A message about one option. -/
def Choice.complain (choice : Choice) (text : String) : String :=
  "argument " ++ choice.label ++ ": " ++ text

/-- The text of a refusal. -/
def UsageError.message : UsageError → String
  | .ambiguous argument candidates =>
    "ambiguous option: " ++ argument ++ " could match " ++ ", ".intercalate candidates
  | .missingValue setting => (Choice.setting setting).complain "expected one argument"
  | .ignoredValue choice value => choice.complain ("ignored explicit argument " ++ quoted value)
  | .notAnInteger setting value =>
    (Choice.setting setting).complain ("invalid _positive_int value: " ++ quoted value)
  | .notPositive setting value =>
    (Choice.setting setting).complain ("must be a positive integer: " ++ quoted value)
  | .missingRoms => "the following arguments are required: roms"
  | .unrecognized arguments => "unrecognized arguments: " ++ " ".intercalate arguments

/-- How a command line ends without running a program. -/
inductive Exit where
  | help
  | misuse (cause : UsageError)
  deriving DecidableEq, Repr

/-- Lines, each with its end. -/
def lines (texts : List String) : String := String.join (texts.map (· ++ "\n"))

/-- How to call the program. -/
def usage : String := lines [
  "usage: chip8vm [-h] [--scale SCALE] [--cpu-hz CPU_HZ] [--legacy-shift]",
  "               [--strict] [--verbose] [--mute]",
  "               roms [roms ...]"]

/-- What the program does and what its arguments mean. -/
def help : String := usage ++ lines [
  "",
  "Run CHIP-8 programs. F2 switches to the next ROM, F3 toggles sound, F4 locks",
  "the CPU to 60 Hz, F1 toggles trace logs.",
  "",
  "positional arguments:",
  "  roms             ROM files, played in the given order",
  "",
  "options:",
  "  -h, --help       show this help message and exit",
  "  --scale SCALE    window pixels per CHIP-8 pixel (default: 10)",
  "  --cpu-hz CPU_HZ  instructions per second (default: 500)",
  "  --legacy-shift   8xyE shifts right like 8xy6, for programs tuned to that",
  "                   behaviour",
  "  --strict         stop on unknown opcodes instead of logging them",
  "  --verbose        log every executed instruction",
  "  --mute           start with sound off"]

namespace Exit

/-- The exit code. -/
def code : Exit → Nat
  | .help => 0
  | .misuse _ => 2

/-- What goes to standard output. -/
def output : Exit → String
  | .help => CommandLine.help
  | .misuse _ => ""

/-- What goes to standard error. -/
def complaint : Exit → String
  | .help => ""
  | .misuse cause => usage ++ lines ["chip8vm: error: " ++ cause.message]

end Exit
end CommandLine
end ChipEight
