import ChipEight.CommandLine.Token
import ChipEight.Text.IntegerLiteral

/-!
# Reading a command line

Arguments are acted on from left to right, and the first that asks for help or is wrong ends the
reading. The program files are one unbroken run of operands, the first; operands elsewhere, and
options that do not exist, are left over. Missing program files are complained about before
anything left over is.
-/

namespace ChipEight
namespace CommandLine

/-- What has been read so far. -/
structure Draft extends Preferences where
  roms : Option (List String) := none
  leftover : List String := []

namespace Draft

/-- Turn a switch on. -/
def turnOn (d : Draft) (switch : Switch) : Draft :=
  { d with toPreferences := d.toPreferences.turnOn switch }

/-- Set a number. -/
def assign (d : Draft) (setting : Setting) (value : Option Nat) : Draft :=
  { d with toPreferences := d.toPreferences.assign value setting }

/-- Put arguments with those that nothing has a use for. -/
def leave (d : Draft) (texts : List String) : Draft :=
  { d with leftover := d.leftover ++ texts }

/-- Take a run of operands: as the program files, without the separator, if there are none yet. -/
def takeRun (d : Draft) (run : List Token) : Draft :=
  let texts := run.map Token.text
  if d.roms.isNone && run.any Token.isOperand then { d with roms := some (texts.erase "--") }
  else d.leave texts

/-- The arguments, once everything has been read. -/
def finish (d : Draft) : Except Exit Arguments :=
  match d.roms with
  | none => .error (.misuse .missingRoms)
  | some roms =>
    if d.leftover.isEmpty then .ok { d.toPreferences with roms }
    else .error (.misuse (.unrecognized d.leftover))

end Draft

/-- Read the value of a setting. The bare separator stands for no value. -/
def readValue (setting : Setting) (text : String) : Except Exit (Option Nat) :=
  if text = "--" then .ok none
  else
    match readInteger? text with
    | none => .error (.misuse (.notAnInteger setting text))
    | some value =>
      if value ≤ 0 then .error (.misuse (.notPositive setting text)) else .ok (some value.toNat)

/-- What asking for help leads to. The short spelling may be repeated in one argument; any other
value is complained about. -/
def helpExit (spelling : Spelling) (value : Option String) : Exit :=
  match value with
  | none => .help
  | some text =>
    let rest := if spelling = shortHelp then text.toList.dropWhile (· = 'h') else text.toList
    if rest.isEmpty && text ≠ "" && spelling = shortHelp then .help
    else .misuse (.ignoredValue .help (String.ofList rest))

/-- Act on the tokens that are left. -/
def act (d : Draft) : List Token → Except Exit Draft
  | [] => .ok d
  | .stray text :: rest => act (d.leave [text]) rest
  | .option _ spelling value :: rest =>
    match spelling.choice with
    | .help => .error (helpExit spelling value)
    | .switch switch =>
      match value with
      | none => act (d.turnOn switch) rest
      | some text => .error (.misuse (.ignoredValue (.switch switch) text))
    | .setting setting =>
      match value, rest with
      | some text, rest => do act (d.assign setting (← readValue setting text)) rest
      | none, .operand text :: rest => do act (d.assign setting (← readValue setting text)) rest
      | none, _ => .error (.misuse (.missingValue setting))
  | token :: rest =>
    act (d.takeRun (token :: rest.takeWhile Token.isPlain)) (rest.dropWhile Token.isPlain)
termination_by tokens => tokens.length
decreasing_by
  all_goals simp_wf
  all_goals have := (List.dropWhile_sublist Token.isPlain (l := rest)).length_le
  all_goals omega

/-- Read a command line. -/
def parse (arguments : List String) : Except Exit Arguments :=
  match Token.recogniseAll arguments with
  | .error cause => .error (.misuse cause)
  | .ok tokens => do (← act {} tokens).finish

end CommandLine
end ChipEight
