import ChipEight.CommandLine.Parse
import ChipEight.Frontend.Handle
import ChipEight.Frontend.Start

/-!
# The program

The command line, and a host for the frontend that needs no display: events come from standard
input, one to a line, and the requests that they lead to are written to standard output.

`tick N`, `press KEY`, `release KEY`, `draw` and `close` are the events; the input's end ends the
program.
-/

namespace ChipEight
namespace Host

/-- The keys by the names that a script uses. -/
def symbolNamed : String → Symbol
  | "1" => .one
  | "2" => .two
  | "3" => .three
  | "4" => .four
  | "q" => .q
  | "w" => .w
  | "e" => .e
  | "r" => .r
  | "a" => .a
  | "s" => .s
  | "d" => .d
  | "f" => .f
  | "z" => .z
  | "x" => .x
  | "c" => .c
  | "v" => .v
  | "escape" => .escape
  | "f1" => .f1
  | "f2" => .f2
  | "f3" => .f3
  | "f4" => .f4
  | _ => .other

/-- The events of a line. -/
def eventsOf (line : String) : List Event :=
  match line.trimAscii.copy.splitOn " " with
  | ["tick"] => [.tick]
  | ["tick", count] => List.replicate (count.toNat?.getD 0) .tick
  | "press" :: names => names.map fun name => .press (symbolNamed name)
  | "release" :: names => names.map fun name => .release (symbolNamed name)
  | ["draw"] => [.draw]
  | ["close"] => [.close]
  | _ => []

/-- A canvas as text, the top row first and one character to a pixel. -/
def canvasText (canvas : Canvas) : String :=
  CommandLine.lines (canvas.rows.toList.reverse.map fun line =>
    String.ofList (line.toList.map fun pixel => if pixel.red == 0 then '.' else '#'))

/-- What a request looks like on standard output. -/
def requestText : Request → String
  | .openWindow width height caption =>
    "window " ++ toString width ++ " " ++ toString height ++ " " ++ caption ++ "\n"
  | .setCaption caption => "caption " ++ caption ++ "\n"
  | .closeWindow => "close\n"
  | .play => "play\n"
  | .pause => "pause\n"
  | .setImage picture => canvasText picture.canvas
  | .showLabel text => "label " ++ text ++ "\n"
  | _ => ""

/-- Why the system refuses to read a file. -/
def fileError : IO.Error → FileError
  | .inappropriateType _ code _ => if code == 21 then .isADirectory else .notADirectory
  | .invalidArgument _ _ _ => .nameTooLong
  | _ => .missing

/-- Read one program file. -/
def readRom (path : String) : IO (String × Except FileError (List Byte)) := do
  try
    let bytes ← IO.FS.readBinFile path
    return (path, .ok (bytes.toList.map (·.toBitVec)))
  catch error => return (path, .error (fileError error))

/-- Write what a turn asks and says. -/
def report (turn : Turn) : IO Unit := do
  for line in turn.lines do IO.println line.bracketed
  for request in turn.requests do IO.print (requestText request)

/-- Pass events on until the input ends. -/
partial def serve (input : IO.FS.Stream) (f : Frontend) : IO UInt32 := do
  let line ← input.getLine
  if line.isEmpty then return 0
  let turn := f.handleAll (eventsOf line)
  report turn
  match turn.breakdown with
  | some cause =>
    IO.eprintln cause.message
    return 1
  | none => serve input turn.state

end Host
end ChipEight

open ChipEight in
/-- Read the command line and run the programs that it names. -/
def main (arguments : List String) : IO UInt32 := do
  match CommandLine.parse arguments with
  | .error exit =>
    IO.print exit.output
    IO.eprint exit.complaint
    return exit.code.toUInt32
  | .ok arguments =>
    let contents ← arguments.roms.mapM Host.readRom
    let files : FileReader := fun path => (contents.lookup path).getD (.error .missing)
    let random ← IO.getRandomBytes 4096
    -- The enlarged picture is never built here, so memory sets no bound of its own.
    match Frontend.start Oversize.wordLimit arguments files
        (.cycle (random.data.map (·.toBitVec))) with
    | .error cause =>
      IO.eprintln cause.message
      return 1
    | .ok turn =>
      Host.report turn
      Host.serve (← IO.getStdin) turn.state
