import ChipEight.Text.Lines

/-!
# Logging

Lines have a level, and a log lets a line through when its level reaches the threshold. Trace lines
need tracing to be switched on as well. Switching it on lowers the threshold to `debug`, and
switching it off does not raise it again.
-/

namespace ChipEight

/-- How urgent a line is. -/
inductive Level where
  | debug
  | info
  | warning
  | error
  deriving DecidableEq, Repr

namespace Level

/-- The rank of a level; a higher one is more urgent. -/
def rank : Level → Nat
  | .debug => 0
  | .info => 1
  | .warning => 2
  | .error => 3

/-- The name of a level. -/
def name : Level → String
  | .debug => "DEBUG"
  | .info => "INFO"
  | .warning => "WARNING"
  | .error => "ERROR"

end Level

/-- A line that came through. -/
structure LogLine where
  level : Level
  text : String
  deriving DecidableEq, Repr

/-- A line as the window program writes it. -/
def LogLine.bracketed (line : LogLine) : String := "[" ++ line.level.name ++ "]: " ++ line.text

/-- The lines that a reader sees of what the window program writes: the text may itself hold the
ends of lines. -/
def LogLine.printed (line : LogLine) : List String :=
  (linesOf (line.bracketed.toList ++ ['\n'])).map String.ofList

/-- The state of a log. -/
structure Log where
  threshold : Level
  tracing : Bool := false
  deriving DecidableEq, Repr

namespace Log

/-- Does a line of this level come through? -/
def admits (log : Log) (level : Level) : Bool := log.threshold.rank ≤ level.rank

/-- The lines that writing a text at a level gives: one or none. -/
def write (log : Log) (level : Level) (text : String) : List LogLine :=
  if log.admits level then [⟨level, text⟩] else []

/-- Write a trace line, if tracing is on. -/
def trace (log : Log) (text : String) : List LogLine :=
  if log.tracing then log.write .debug text else []

/-- Write an error. -/
def error (log : Log) (text : String) : List LogLine := log.write .error text

/-- Switch tracing; the threshold falls to `debug` when it is switched on. -/
def setVerbose (log : Log) (on : Bool) : Log :=
  { threshold := if on && !log.admits .debug then .debug else log.threshold, tracing := on }

/-- The line that tells whether tracing is on. -/
def announce (log : Log) : List LogLine :=
  log.write .info ("logsOn: " ++ if log.tracing then "True" else "False")

end Log
end ChipEight
