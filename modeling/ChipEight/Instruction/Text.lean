import ChipEight.Instruction
import ChipEight.Text.Hex

/-!
# Listing text

An instruction is written as a mnemonic and its operands: registers as `V` and a digit, bytes,
addresses and raw words in hexadecimal at a fixed width, sprite heights in decimal.
-/

namespace ChipEight

/-- What a listing shows after the mnemonic. -/
inductive Operand where
  | register (x : Nibble)
  | byte (b : Byte)
  | address (a : Address)
  | height (n : Nibble)
  | word (w : Word)
  /-- The index register. -/
  | index
  /-- The memory that the index register points at. -/
  | pointed
  | delay
  | sound
  | key
  | glyph
  | digits
  deriving DecidableEq, Repr

/-- How an operand is written. -/
def Operand.chars : Operand → List Char
  | .register x => 'V' :: Hex.fixed 1 x
  | .byte b => '0' :: 'x' :: Hex.fixed 2 b.toNat
  | .address a => '0' :: 'x' :: Hex.fixed 3 a.toNat
  | .height n => Nat.toDigits 10 n
  | .word w => '0' :: 'x' :: Hex.fixed 4 w.toNat
  | .index => ['I']
  | .pointed => ['[', 'I', ']']
  | .delay => ['D', 'T']
  | .sound => ['S', 'T']
  | .key => ['K']
  | .glyph => ['F']
  | .digits => ['B']

namespace Instruction

/-- The mnemonic and the operands of an instruction. -/
def spelling : Instruction → String × List Operand
  | .clearScreen => ("CLS", [])
  | .ret => ("RET", [])
  | .jump a => ("JP", [.address a])
  | .call a => ("CALL", [.address a])
  | .skipIfByte x b => ("SE", [.register x, .byte b])
  | .skipUnlessByte x b => ("SNE", [.register x, .byte b])
  | .skipIfSame x y => ("SE", [.register x, .register y])
  | .loadByte x b => ("LD", [.register x, .byte b])
  | .addByte x b => ("ADD", [.register x, .byte b])
  | .copy x y => ("LD", [.register x, .register y])
  | .or x y => ("OR", [.register x, .register y])
  | .and x y => ("AND", [.register x, .register y])
  | .xor x y => ("XOR", [.register x, .register y])
  | .add x y => ("ADD", [.register x, .register y])
  | .sub x y => ("SUB", [.register x, .register y])
  | .shiftRight x => ("SHR", [.register x])
  | .subFrom x y => ("SUBN", [.register x, .register y])
  | .shiftLeft x => ("SHL", [.register x])
  | .skipUnlessSame x y => ("SNE", [.register x, .register y])
  | .loadIndex a => ("LD", [.index, .address a])
  | .jumpFrom a => ("JP", [.register 0, .address a])
  | .random x b => ("RND", [.register x, .byte b])
  | .draw x y n => ("DRW", [.register x, .register y, .height n])
  | .skipIfKey x => ("SKP", [.register x])
  | .skipUnlessKey x => ("SKNP", [.register x])
  | .readDelay x => ("LD", [.register x, .delay])
  | .waitKey x => ("LD", [.register x, .key])
  | .setDelay x => ("LD", [.delay, .register x])
  | .setSound x => ("LD", [.sound, .register x])
  | .addIndex x => ("ADD", [.index, .register x])
  | .pointGlyph x => ("LD", [.glyph, .register x])
  | .storeDigits x => ("LD", [.digits, .register x])
  | .storeRegisters x => ("LD", [.pointed, .register x])
  | .loadRegisters x => ("LD", [.register x, .pointed])
  | .unknown w => ("DW", [.word w])

/-- Operands after the mnemonic: a blank before the first, a comma and a blank between them. -/
def operandChars : List Operand → List Char
  | [] => []
  | o :: os => ' ' :: o.chars ++ os.flatMap (fun p => ',' :: ' ' :: p.chars)

/-- The line of an instruction in a listing. -/
def text (i : Instruction) : String :=
  String.ofList (i.spelling.1.toList ++ operandChars i.spelling.2)

end Instruction
end ChipEight
