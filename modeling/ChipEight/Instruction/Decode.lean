import ChipEight.Instruction

/-!
# Decoding

A table of rows, each fitting the words that agree with its pattern under its mask. The first row
that fits a word decodes it; a word that no row fits is `unknown`. No word fits twice, so the order
of the rows does not matter.

* `Row`: a row of the table, and `Row.withX` and the others for the operands that it reads.
* `Instruction.table`: the instruction set.
* `Instruction.decode`, `Instruction.decodeInt`: reading a word, or an integer that may be none.
-/

namespace ChipEight

/-- A row fits the words that equal `pattern` under `mask`, and says how to read them. -/
structure Row where
  mask : Word
  pattern : Word
  read : Word → Instruction

namespace Row

/-- Does the row fit this word? -/
def fits (row : Row) (w : Word) : Bool := w &&& row.mask == row.pattern

/-- A row whose words carry one register. -/
def withX (mask pattern : Word) (make : Nibble → Instruction) : Row :=
  ⟨mask, pattern, fun w => make w.x⟩

/-- A row whose words carry two registers. -/
def withXY (mask pattern : Word) (make : Nibble → Nibble → Instruction) : Row :=
  ⟨mask, pattern, fun w => make w.x w.y⟩

/-- A row whose words carry a register and a byte. -/
def withByte (mask pattern : Word) (make : Nibble → Byte → Instruction) : Row :=
  ⟨mask, pattern, fun w => make w.x w.kk⟩

/-- A row whose words carry an address. -/
def withAddress (mask pattern : Word) (make : Address → Instruction) : Row :=
  ⟨mask, pattern, fun w => make w.nnn⟩

end Row

namespace Instruction

/-- The instruction set. -/
def table : List Row := [
  ⟨0xFFFF, 0x00E0, fun _ => .clearScreen⟩,
  ⟨0xFFFF, 0x00EE, fun _ => .ret⟩,
  .withAddress 0xF000 0x1000 .jump,
  .withAddress 0xF000 0x2000 .call,
  .withByte 0xF000 0x3000 .skipIfByte,
  .withByte 0xF000 0x4000 .skipUnlessByte,
  .withXY 0xF00F 0x5000 .skipIfSame,
  .withByte 0xF000 0x6000 .loadByte,
  .withByte 0xF000 0x7000 .addByte,
  .withXY 0xF00F 0x8000 .copy,
  .withXY 0xF00F 0x8001 .or,
  .withXY 0xF00F 0x8002 .and,
  .withXY 0xF00F 0x8003 .xor,
  .withXY 0xF00F 0x8004 .add,
  .withXY 0xF00F 0x8005 .sub,
  .withX 0xF00F 0x8006 .shiftRight,
  .withXY 0xF00F 0x8007 .subFrom,
  .withX 0xF00F 0x800E .shiftLeft,
  .withXY 0xF00F 0x9000 .skipUnlessSame,
  .withAddress 0xF000 0xA000 .loadIndex,
  .withAddress 0xF000 0xB000 .jumpFrom,
  .withByte 0xF000 0xC000 .random,
  ⟨0xF000, 0xD000, fun w => .draw w.x w.y w.n⟩,
  .withX 0xF0FF 0xE09E .skipIfKey,
  .withX 0xF0FF 0xE0A1 .skipUnlessKey,
  .withX 0xF0FF 0xF007 .readDelay,
  .withX 0xF0FF 0xF00A .waitKey,
  .withX 0xF0FF 0xF015 .setDelay,
  .withX 0xF0FF 0xF018 .setSound,
  .withX 0xF0FF 0xF01E .addIndex,
  .withX 0xF0FF 0xF029 .pointGlyph,
  .withX 0xF0FF 0xF033 .storeDigits,
  .withX 0xF0FF 0xF055 .storeRegisters,
  .withX 0xF0FF 0xF065 .loadRegisters]

/-- Read a word by the first of the rows that fits it. -/
def decodeBy (rows : List Row) (w : Word) : Instruction :=
  match rows.find? (·.fits w) with
  | some row => row.read w
  | none => .unknown w

/-- The instruction of a word. -/
def decode (w : Word) : Instruction := decodeBy table w

/-- The word of an integer and its instruction, by the first of the rows that fits; an integer
outside `0..65535` is refused. -/
def decodeIntBy (rows : List Row) (value : Int) : Except RangeError (Word × Instruction) :=
  (Word.ofInt? value).map fun w => (w, decodeBy rows w)

/-- The word of an integer and its instruction. -/
def decodeInt (value : Int) : Except RangeError (Word × Instruction) := decodeIntBy table value

end Instruction
end ChipEight
