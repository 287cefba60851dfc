import ChipEight.Word

/-!
# Instructions

What a decoded instruction word asks for, with only the operands it uses. Two words that differ in
bits an instruction ignores decode to the same value of this type.
-/

namespace ChipEight

/-- One instruction; `unknown` carries a word that is none. -/
inductive Instruction where
  /-- Clear the screen. -/
  | clearScreen
  /-- Resume after the latest call. -/
  | ret
  | jump (target : Address)
  | call (target : Address)
  | skipIfByte (x : Nibble) (byte : Byte)
  | skipUnlessByte (x : Nibble) (byte : Byte)
  | skipIfSame (x y : Nibble)
  | loadByte (x : Nibble) (byte : Byte)
  /-- Add a constant, leaving the flag alone. -/
  | addByte (x : Nibble) (byte : Byte)
  | copy (x y : Nibble)
  | or (x y : Nibble)
  | and (x y : Nibble)
  | xor (x y : Nibble)
  /-- Add with carry flag. -/
  | add (x y : Nibble)
  /-- `Vx - Vy`, flag up when `Vx` is the greater. -/
  | sub (x y : Nibble)
  | shiftRight (x : Nibble)
  /-- `Vy - Vx`, flag up when `Vy` is the greater. -/
  | subFrom (x y : Nibble)
  | shiftLeft (x : Nibble)
  | skipUnlessSame (x y : Nibble)
  | loadIndex (target : Address)
  /-- Jump to the target plus `V0`. -/
  | jumpFrom (target : Address)
  /-- A random byte, masked. -/
  | random (x : Nibble) (mask : Byte)
  | draw (x y : Nibble) (height : Nibble)
  | skipIfKey (x : Nibble)
  | skipUnlessKey (x : Nibble)
  | readDelay (x : Nibble)
  /-- Stall until a key is armed. -/
  | waitKey (x : Nibble)
  | setDelay (x : Nibble)
  | setSound (x : Nibble)
  | addIndex (x : Nibble)
  /-- Point the index at a digit's glyph. -/
  | pointGlyph (x : Nibble)
  /-- Store three decimal digits. -/
  | storeDigits (x : Nibble)
  | storeRegisters (x : Nibble)
  | loadRegisters (x : Nibble)
  | unknown (word : Word)
  deriving DecidableEq, Repr

end ChipEight
