import ChipEight.CommandLine.Usage
import ChipEight.Text.DecimalDigit

/-!
# Classifying arguments

Before anything is acted on, each argument is recognised on its own: an operand, an option with or
without a value written into it, or something that looks like an option and is none. After the
separator `--` everything is an operand.

Long options may be shortened as long as only one fits. What looks like a negative number or holds
a blank is an operand, unless it is an option.
-/

namespace ChipEight
namespace CommandLine

/-- One argument, recognised. -/
inductive Token where
  | operand (text : String)
  /-- The first `--`. -/
  | separator
  /-- An option, and the value that the same argument gives it. -/
  | option (text : String) (spelling : Spelling) (value : Option String)
  /-- Looks like an option, and is none. -/
  | stray (text : String)
  deriving DecidableEq, Repr

namespace Token

/-- The argument as it was written. -/
def text : Token → String
  | .operand text => text
  | .separator => "--"
  | .option text _ _ => text
  | .stray text => text

/-- Is it an operand or the separator? -/
def isPlain : Token → Bool
  | .operand _ => true
  | .separator => true
  | _ => false

/-- Is it an operand? -/
def isOperand : Token → Bool
  | .operand _ => true
  | _ => false

/-- The name in front of the first `=`, and what follows it. -/
def splitValue (text : String) : String × Option String :=
  let chars := text.toList
  match chars.dropWhile (· ≠ '=') with
  | [] => (text, none)
  | _ :: value => (String.ofList (chars.takeWhile (· ≠ '=')), some (String.ofList value))

/-- The spelling with exactly this name. -/
def spelled? (name : String) : Option Spelling := spellings.find? (·.name == name)

/-- The readings of an argument as a shortened option, or as the short option with its value
attached. -/
def candidates (text : String) : List (Spelling × Option String) :=
  if "--".toList.isPrefixOf text.toList then
    let (name, value) := splitValue text
    (spellings.filter fun s => name.toList.isPrefixOf s.name.toList).map (·, value)
  else if shortHelp.name.toList.isPrefixOf text.toList then
    [(shortHelp, some (String.ofList (text.toList.drop 2)))]
  else []

/-- Is it a minus, digits, and perhaps a point with more digits after it? A line end may follow. -/
def looksNegative (text : String) : Bool :=
  match text.toList with
  | '-' :: rest =>
    let body := if rest.getLast? = some '\n' then rest.dropLast else rest
    let whole := body.takeWhile isDecimalDigit
    match body.dropWhile isDecimalDigit with
    | [] => !whole.isEmpty
    | '.' :: fraction => !fraction.isEmpty && fraction.all isDecimalDigit
    | _ => false
  | _ => false

/-- The reading of an argument as an option: its full spelling, or one with a value after `=`. -/
def fullReading? (text : String) : Option (Spelling × Option String) :=
  match spelled? text with
  | some spelling => some (spelling, none)
  | none =>
    match splitValue text with
    | (name, some value) => (spelled? name).map (·, some value)
    | (_, none) => none

/-- Recognise an argument in front of the separator. -/
def recognise (text : String) : Except UsageError Token :=
  if text.toList.head? ≠ some '-' ∨ text = "-" then .ok (.operand text)
  else
    match fullReading? text with
    | some (spelling, value) => .ok (.option text spelling value)
    | none =>
      match candidates text with
      | [(spelling, value)] => .ok (.option text spelling value)
      | [] =>
        if looksNegative text || text.toList.contains ' ' then .ok (.operand text)
        else .ok (.stray text)
      | several => .error (.ambiguous text (several.map (·.1.name)))

/-- Recognise all arguments; the first one that is ambiguous refuses them all. -/
def recogniseAll : List String → Except UsageError (List Token)
  | [] => .ok []
  | text :: rest =>
    if text = "--" then .ok (.separator :: rest.map .operand)
    else do
      let token ← recognise text
      return token :: (← recogniseAll rest)

end Token
end CommandLine
end ChipEight
