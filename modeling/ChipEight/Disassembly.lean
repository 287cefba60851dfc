import ChipEight.Instruction.Decode
import ChipEight.Instruction.Text

/-!
# Disassembly

A program is read two bytes at a time; a trailing odd byte is left out. Each entry keeps its word,
so the entries give the program back.
-/

namespace ChipEight

/-- One line of a listing: an address, which may be any integer, and the word found there. -/
structure Entry where
  address : Int
  word : Word
  deriving DecidableEq, Repr

namespace Entry

/-- The instruction of an entry. -/
def instruction (e : Entry) : Instruction := .decode e.word

/-- Where programs are listed from unless the caller says otherwise. -/
def defaultOrigin : Int := 0x200

end Entry

/-- The listing of a program placed at `origin`. -/
def disassemble (origin : Int) : List Byte → List Entry
  | hi :: lo :: rest => ⟨origin, Word.ofBytes hi lo⟩ :: disassemble (origin + 2) rest
  | _ => []

/-- The listing of a program that is given as integers; one that is no byte leaves no listing. -/
def disassembleInts (origin : Int) (program : List Int) : Except RangeError (List Entry) :=
  (bytesOfInts program).map (disassemble origin)

end ChipEight
