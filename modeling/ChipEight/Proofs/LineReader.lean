import ChipEight.Instruction.Text
import ChipEight.Proofs.Decoding
import Mathlib.Algebra.GroupWithZero.Nat

/-!
# Reading a listing line

The line of an instruction can be turned into a word again. Blanks part it into the mnemonic and the
operands, the characters of an operand say which one it is, and the mnemonic with the operands makes
the word. It is the word that was listed, up to one nibble: `8xy6` and `8xyE` do not show their `y`,
and come back with zero for it.

* `Hex.value?_fixed`: the number that hexadecimal digits stand for.
* `Operand.ofChars?_chars`: an operand from its characters.
* `Instruction.fields_text`: the parts of a line.
* `Word.assemble?`: the word of a mnemonic with its operands, and `Row.ReadBack`: the words of a row
  come back from what is listed for them.
* `Word.ofLine?_text`: the word of a line.
-/

namespace ChipEight

/-! ### Numbers and operands -/

namespace Hex

/-- The number that a digit stands for. -/
def digit? (c : Char) : Option Nibble := (List.finRange 16).find? fun d => digit d == c

/-- The number that digits stand for, the most significant first. -/
def value? (digits : List Char) : Option Nat :=
  digits.foldlM (fun n c => (digit? c).map fun d => 16 * n + d) 0

theorem digit?_digit : ∀ d : Nibble, digit? (digit d) = some d := by
  decide

theorem value?_fixed {k n : Nat} (short : n < 16 ^ k) : value? (fixed k n) = some n := by
  induction k generalizing n with
  | zero =>
      obtain rfl : n = 0 := Nat.lt_one_iff.1 short
      rfl
  | succ k ih =>
      have front : n / 16 < 16 ^ k := Nat.div_lt_of_lt_mul (by rwa [← pow_succ'])
      have last : digit? (digit (n % 16)) = some (Fin.ofNat 16 n) := digit?_digit (Fin.ofNat 16 n)
      rw [value?, fixed, List.foldlM_append, ← value?, ih front]
      simp [last, Nat.div_add_mod]

end Hex

namespace Operand

/-- The height that is written so. -/
def height? (cs : List Char) : Option Nibble :=
  (List.finRange 16).find? fun n => Nat.toDigits 10 n == cs

/-- The operand that is written so. -/
def ofChars? : List Char → Option Operand
  | ['I'] => some .index
  | ['[', 'I', ']'] => some .pointed
  | ['D', 'T'] => some .delay
  | ['S', 'T'] => some .sound
  | ['K'] => some .key
  | ['F'] => some .glyph
  | ['B'] => some .digits
  | ['V', c] => (Hex.digit? c).map .register
  | ['0', 'x', c, d] => (Hex.value? [c, d]).map fun n => .byte (.ofNat 8 n)
  | ['0', 'x', c, d, e] => (Hex.value? [c, d, e]).map fun n => .address (.ofNat 12 n)
  | ['0', 'x', c, d, e, f] => (Hex.value? [c, d, e, f]).map fun n => .word (.ofNat 16 n)
  | cs => (height? cs).map .height

theorem ofChars?_height : ∀ n : Nibble, ofChars? (height n).chars = some (.height n) := by
  decide +kernel

/-- An operand from its characters. -/
theorem ofChars?_chars (o : Operand) : ofChars? o.chars = some o := by
  cases o with
  | register x =>
      show (Hex.digit? (Hex.digit (x % 16))).map register = _
      rw [Nat.mod_eq_of_lt x.isLt, Hex.digit?_digit, Option.map_some]
  | byte b =>
      show (Hex.value? (Hex.fixed 2 b.toNat)).map _ = _
      rw [Hex.value?_fixed b.isLt, Option.map_some, BitVec.ofNat_toNat, BitVec.setWidth_eq]
  | address a =>
      show (Hex.value? (Hex.fixed 3 a.toNat)).map _ = _
      rw [Hex.value?_fixed a.isLt, Option.map_some, BitVec.ofNat_toNat, BitVec.setWidth_eq]
  | word w =>
      show (Hex.value? (Hex.fixed 4 w.toNat)).map _ = _
      rw [Hex.value?_fixed w.isLt, Option.map_some, BitVec.ofNat_toNat, BitVec.setWidth_eq]
  | height n =>
      exact ofChars?_height n
  | _ =>
      rfl

theorem mapM_ofChars? (operands : List Operand) :
    (operands.map chars).mapM ofChars? = some operands := by
  induction operands with
  | nil =>
      rfl
  | cons o rest ih =>
      rw [List.map_cons, List.mapM_cons, ofChars?_chars, ih]
      rfl

end Operand

/-! ### The parts of a line -/

/-- Characters that stay together in a line: there is no blank and no comma among them. -/
def Unbroken (cs : List Char) : Prop := ∀ c ∈ cs, c ≠ ',' ∧ c ≠ ' '

instance (cs : List Char) : Decidable (Unbroken cs) :=
  List.decidableBAll (fun c => c ≠ ',' ∧ c ≠ ' ') cs

theorem Unbroken.filter_eq {cs : List Char} (h : Unbroken cs) : cs.filter (· != ',') = cs :=
  List.filter_eq_self.2 fun c member => bne_iff_ne.2 (h c member).1

theorem Unbroken.not_mem {cs : List Char} (h : Unbroken cs) : ' ' ∉ cs :=
  fun member => (h ' ' member).2 rfl

theorem Hex.unbroken_fixed (k n : Nat) : Unbroken (fixed k n) := by
  induction k generalizing n with
  | zero =>
      nofun
  | succ k ih =>
      have last : ∀ d : Nibble, Unbroken [digit d] := by decide
      exact List.forall_mem_append.2 ⟨ih _, last (Fin.ofNat 16 n)⟩

theorem Hex.unbroken_prefixed (k n : Nat) : Unbroken ('0' :: 'x' :: fixed k n) :=
  List.forall_mem_append.2 ⟨show Unbroken ['0', 'x'] by decide, unbroken_fixed k n⟩

namespace Operand

theorem unbroken_height : ∀ n : Nibble, Unbroken (height n).chars := by
  decide +kernel

theorem unbroken_chars (o : Operand) : Unbroken o.chars := by
  cases o with
  | register x =>
      exact List.forall_mem_cons.2 ⟨by decide, Hex.unbroken_fixed 1 x⟩
  | byte b =>
      exact Hex.unbroken_prefixed 2 b.toNat
  | address a =>
      exact Hex.unbroken_prefixed 3 a.toNat
  | word w =>
      exact Hex.unbroken_prefixed 4 w.toNat
  | height n =>
      exact unbroken_height n
  | _ =>
      decide

end Operand

namespace Instruction

/-- The parts of a line: what stands between its blanks. Commas are passed over. -/
def fields (line : String) : List (List Char) := (line.toList.filter (· != ',')).splitOn ' '

theorem unbroken_mnemonic (i : Instruction) : Unbroken i.spelling.1.toList := by
  cases i <;> simp [Unbroken, spelling]

theorem filter_operandChars (operands : List Operand) :
    (operandChars operands).filter (· != ',') = operands.flatMap fun o => ' ' :: o.chars := by
  cases operands with
  | nil =>
      rfl
  | cons o rest =>
      have later (p : Operand) :
          (',' :: ' ' :: p.chars).filter (· != ',') = ' ' :: p.chars := by
        rw [List.filter_cons_of_neg (by decide), List.filter_cons_of_pos (by decide),
          p.unbroken_chars.filter_eq]
      rw [operandChars, List.filter_append, List.filter_cons_of_pos (by decide),
        o.unbroken_chars.filter_eq, List.filter_flatMap]
      simp only [later, List.flatMap_cons]

theorem splitOn_operands (operands : List Operand) {cs : List Char} (unbroken : Unbroken cs) :
    (cs ++ operands.flatMap fun o => ' ' :: o.chars).splitOn ' ' =
      cs :: operands.map Operand.chars := by
  induction operands generalizing cs with
  | nil =>
      rw [List.flatMap_nil, List.append_nil, List.splitOn_eq_singleton unbroken.not_mem,
        List.map_nil]
  | cons o rest ih =>
      rw [List.flatMap_cons, List.cons_append,
        List.splitOn_append_cons_self_of_not_mem unbroken.not_mem, ih o.unbroken_chars,
        List.map_cons]

theorem fields_text (i : Instruction) :
    fields i.text = i.spelling.1.toList :: i.spelling.2.map Operand.chars := by
  rw [fields, text, String.toList_ofList, List.filter_append, i.unbroken_mnemonic.filter_eq,
    filter_operandChars, splitOn_operands _ i.unbroken_mnemonic]

end Instruction

/-! ### Words from their nibbles -/

namespace Word

/-- The word of four nibbles, the most significant first. -/
def ofNibbles (a x y n : Nibble) : Word := .ofNat 16 (4096 * a + 256 * x + 16 * y + n)

/-- The word of two nibbles and a byte. -/
def ofByte (a x : Nibble) (b : Byte) : Word := .ofNat 16 (4096 * a + 256 * x + b.toNat)

/-- The word of a nibble and an address. -/
def ofAddress (a : Nibble) (target : Address) : Word := .ofNat 16 (4096 * a + target.toNat)

section Fields

variable (w mask : Word) (k : Nat)

theorem val_nibble : (w.nibble k).val = w.toNat / 2 ^ k % 16 := by
  rw [nibble, Fin.val_ofNat, Nat.shiftRight_eq_div_pow]

theorem ofNibbles_eq : ofNibbles (w.nibble 12) w.x w.y w.n = w := by
  have := w.isLt
  apply BitVec.eq_of_toNat_eq
  simp only [ofNibbles, x, y, n, val_nibble, BitVec.toNat_ofNat]
  omega

theorem ofByte_eq : ofByte (w.nibble 12) w.x w.kk = w := by
  have := w.isLt
  apply BitVec.eq_of_toNat_eq
  simp only [ofByte, x, kk, val_nibble, BitVec.toNat_ofNat, BitVec.toNat_setWidth]
  omega

theorem ofAddress_eq : ofAddress (w.nibble 12) w.nnn = w := by
  have := w.isLt
  apply BitVec.eq_of_toNat_eq
  simp only [ofAddress, nnn, val_nibble, BitVec.toNat_ofNat, BitVec.toNat_setWidth]
  omega

theorem nibble_and : (w &&& mask).nibble k = w.nibble k &&& mask.nibble k := by
  apply Fin.ext
  rw [nibble, Fin.val_ofNat, BitVec.toNat_and, Nat.shiftRight_and_distrib]
  show _ % 2 ^ 4 = (_ % 2 ^ 4 &&& _ % 2 ^ 4) % 2 ^ 4
  rw [← Nat.and_mod_two_pow, Nat.mod_mod]

end Fields

section Masks

variable {w mask pattern : Word} {k : Nat}

theorem nibble_of_and (fits : w &&& mask = pattern) (ones : mask.nibble k = 15) :
    w.nibble k = pattern.nibble k := by
  have all : ∀ a : Nibble, a &&& 15 = a := by decide
  rw [← fits, nibble_and, ones, all]

theorem kk_of_and (fits : w &&& mask = pattern) (ones : mask.kk = 0xFF) : w.kk = pattern.kk := by
  rw [← fits, kk, kk, BitVec.setWidth_and]
  show _ = _ &&& mask.kk
  rw [ones]
  exact BitVec.and_allOnes.symm

end Masks

/-! ### The word of a line -/

/-- The word of a mnemonic with its operands. -/
def assemble? : String × List Operand → Option Word
  | ("CLS", []) => some 0x00E0
  | ("RET", []) => some 0x00EE
  | ("JP", [.address a]) => some (.ofAddress 1 a)
  | ("CALL", [.address a]) => some (.ofAddress 2 a)
  | ("SE", [.register x, .byte b]) => some (.ofByte 3 x b)
  | ("SNE", [.register x, .byte b]) => some (.ofByte 4 x b)
  | ("SE", [.register x, .register y]) => some (.ofNibbles 5 x y 0)
  | ("LD", [.register x, .byte b]) => some (.ofByte 6 x b)
  | ("ADD", [.register x, .byte b]) => some (.ofByte 7 x b)
  | ("LD", [.register x, .register y]) => some (.ofNibbles 8 x y 0)
  | ("OR", [.register x, .register y]) => some (.ofNibbles 8 x y 1)
  | ("AND", [.register x, .register y]) => some (.ofNibbles 8 x y 2)
  | ("XOR", [.register x, .register y]) => some (.ofNibbles 8 x y 3)
  | ("ADD", [.register x, .register y]) => some (.ofNibbles 8 x y 4)
  | ("SUB", [.register x, .register y]) => some (.ofNibbles 8 x y 5)
  | ("SHR", [.register x]) => some (.ofNibbles 8 x 0 6)
  | ("SUBN", [.register x, .register y]) => some (.ofNibbles 8 x y 7)
  | ("SHL", [.register x]) => some (.ofNibbles 8 x 0 0xE)
  | ("SNE", [.register x, .register y]) => some (.ofNibbles 9 x y 0)
  | ("LD", [.index, .address a]) => some (.ofAddress 0xA a)
  | ("JP", [.register 0, .address a]) => some (.ofAddress 0xB a)
  | ("RND", [.register x, .byte b]) => some (.ofByte 0xC x b)
  | ("DRW", [.register x, .register y, .height n]) => some (.ofNibbles 0xD x y n)
  | ("SKP", [.register x]) => some (.ofByte 0xE x 0x9E)
  | ("SKNP", [.register x]) => some (.ofByte 0xE x 0xA1)
  | ("LD", [.register x, .delay]) => some (.ofByte 0xF x 0x07)
  | ("LD", [.register x, .key]) => some (.ofByte 0xF x 0x0A)
  | ("LD", [.delay, .register x]) => some (.ofByte 0xF x 0x15)
  | ("LD", [.sound, .register x]) => some (.ofByte 0xF x 0x18)
  | ("ADD", [.index, .register x]) => some (.ofByte 0xF x 0x1E)
  | ("LD", [.glyph, .register x]) => some (.ofByte 0xF x 0x29)
  | ("LD", [.digits, .register x]) => some (.ofByte 0xF x 0x33)
  | ("LD", [.pointed, .register x]) => some (.ofByte 0xF x 0x55)
  | ("LD", [.register x, .pointed]) => some (.ofByte 0xF x 0x65)
  | ("DW", [.word w]) => some w
  | _ => none

/-- The word of a line; one that is no line of a listing has none. -/
def ofLine? (line : String) : Option Word :=
  match Instruction.fields line with
  | [] => none
  | mnemonic :: operands =>
    (operands.mapM Operand.ofChars?).bind fun os => assemble? (String.ofList mnemonic, os)

/-- A shift, `8xy6` or `8xyE`. -/
def Shifts (w : Word) : Prop := w &&& 0xF00F = 0x8006 ∨ w &&& 0xF00F = 0x800E

instance (w : Word) : Decidable w.Shifts := inferInstanceAs (Decidable (_ ∨ _))

/-- What a listing shows of a word: all of it but the `y` of a shift. -/
def listed (w : Word) : Word := if w.Shifts then w &&& 0xFF0F else w

end Word

namespace Row

/-- The words that fit the row come back from what is listed for them. This leaves out the shifts,
whose rows read less than their words hold. -/
def ReadBack (row : Row) : Prop :=
  ∀ w : Word, w &&& row.mask = row.pattern → ¬ w.Shifts →
    Word.assemble? (row.read w).spelling = some w

namespace ReadBack

open Word

variable {pattern : Word}

theorem whole {i : Instruction} (h : assemble? i.spelling = some pattern) :
    ReadBack ⟨0xFFFF, pattern, fun _ => i⟩ := by
  intro w (fits : w &&& BitVec.allOnes 16 = pattern) _
  rw [BitVec.and_allOnes] at fits
  rw [fits]
  exact h

theorem withAddress {make : Address → Instruction}
    (h : ∀ a, assemble? (make a).spelling = some (ofAddress (pattern.nibble 12) a)) :
    (Row.withAddress 0xF000 pattern make).ReadBack := by
  intro w (fits : w &&& 0xF000 = pattern) _
  refine (h w.nnn).trans ?_
  rw [← nibble_of_and fits (by decide), ofAddress_eq]

theorem withByte {make : Nibble → Byte → Instruction}
    (h : ∀ x b, assemble? (make x b).spelling = some (ofByte (pattern.nibble 12) x b)) :
    (Row.withByte 0xF000 pattern make).ReadBack := by
  intro w (fits : w &&& 0xF000 = pattern) _
  refine (h w.x w.kk).trans ?_
  rw [← nibble_of_and fits (by decide), ofByte_eq]

theorem withX {make : Nibble → Instruction}
    (h : ∀ x, assemble? (make x).spelling = some (ofByte (pattern.nibble 12) x pattern.kk)) :
    (Row.withX 0xF0FF pattern make).ReadBack := by
  intro w (fits : w &&& 0xF0FF = pattern) _
  refine (h w.x).trans ?_
  rw [← nibble_of_and fits (by decide), ← kk_of_and fits (by decide), ofByte_eq]

theorem withXY {make : Nibble → Nibble → Instruction}
    (h : ∀ x y, assemble? (make x y).spelling =
      some (ofNibbles (pattern.nibble 12) x y (pattern.nibble 0))) :
    (Row.withXY 0xF00F pattern make).ReadBack := by
  intro w (fits : w &&& 0xF00F = pattern) _
  refine (h w.x w.y).trans ?_
  rw [← nibble_of_and fits (by decide), ← nibble_of_and fits (by decide), ← n, ofNibbles_eq]

theorem withHeight {make : Nibble → Nibble → Nibble → Instruction}
    (h : ∀ x y n, assemble? (make x y n).spelling = some (ofNibbles (pattern.nibble 12) x y n)) :
    ReadBack ⟨0xF000, pattern, fun w => make w.x w.y w.n⟩ := by
  intro w (fits : w &&& 0xF000 = pattern) _
  refine (h w.x w.y w.n).trans ?_
  rw [← nibble_of_and fits (by decide), ofNibbles_eq]

theorem shift {make : Nibble → Instruction} (h : pattern = 0x8006 ∨ pattern = 0x800E) :
    (Row.withX 0xF00F pattern make).ReadBack := by
  intro w (fits : w &&& 0xF00F = pattern) unshifted
  rw [← fits] at h
  exact absurd h unshifted

end ReadBack
end Row

namespace Instruction

theorem table_readBack : ∀ row ∈ table, row.ReadBack := by
  simp only [table, List.forall_mem_cons]
  exact ⟨.whole rfl, .whole rfl, .withAddress fun _ => rfl, .withAddress fun _ => rfl,
    .withByte fun _ _ => rfl, .withByte fun _ _ => rfl, .withXY fun _ _ => rfl,
    .withByte fun _ _ => rfl, .withByte fun _ _ => rfl,
    -- the words from 8000 on, with their two shifts
    .withXY fun _ _ => rfl, .withXY fun _ _ => rfl, .withXY fun _ _ => rfl,
    .withXY fun _ _ => rfl, .withXY fun _ _ => rfl, .withXY fun _ _ => rfl,
    .shift (.inl rfl), .withXY fun _ _ => rfl, .shift (.inr rfl),
    .withXY fun _ _ => rfl, .withAddress fun _ => rfl, .withAddress fun _ => rfl,
    .withByte fun _ _ => rfl, .withHeight fun _ _ _ => rfl,
    -- the words from E000 on, all with one register
    .withX fun _ => rfl, .withX fun _ => rfl, .withX fun _ => rfl, .withX fun _ => rfl,
    .withX fun _ => rfl, .withX fun _ => rfl, .withX fun _ => rfl, .withX fun _ => rfl,
    .withX fun _ => rfl, .withX fun _ => rfl, .withX fun _ => rfl, List.forall_mem_nil _⟩

end Instruction

namespace Word

open Instruction

variable {w pattern : Word}

/-- What is listed of a shift has zero for `y`. -/
theorem listed_of_shifts (shifts : w.Shifts) (fits : w &&& 0xF00F = pattern) :
    w.listed = ofNibbles (pattern.nibble 12) w.x 0 (pattern.nibble 0) := by
  have none : ∀ a : Nibble, a &&& 0 = 0 := by decide
  have kept {k : Nat} (ones : nibble 0xFF0F k = 15) : (w &&& 0xFF0F).nibble k = w.nibble k :=
    (nibble_of_and rfl ones).symm
  have top : (w &&& 0xFF0F).nibble 12 = pattern.nibble 12 :=
    (kept (by decide)).trans (nibble_of_and fits (by decide))
  have second : (w &&& 0xFF0F).x = w.x := kept (by decide)
  have third : (w &&& 0xFF0F).y = 0 := (nibble_and w 0xFF0F 4).trans (none _)
  have last : (w &&& 0xFF0F).n = pattern.nibble 0 :=
    (kept (by decide)).trans (nibble_of_and fits (by decide))
  rw [listed, if_pos shifts, ← ofNibbles_eq (w &&& 0xFF0F), top, second, third, last]

/-- What a listing shows of a word makes the word again. -/
theorem assemble?_decode (w : Word) : assemble? (decode w).spelling = some w.listed := by
  by_cases shifts : w.Shifts
  · rcases shifts with right | left
    · rw [decode_shiftRight right, listed_of_shifts (.inl right) right]
      rfl
    · rw [decode_eq_shiftLeft_iff.2 ⟨left, rfl⟩, listed_of_shifts (.inr left) left]
      rfl
  · rw [listed, if_neg shifts]
    refine decode_cases w (fun row member fits => ?_) rfl
    exact table_readBack row member w fits shifts

/-- **A line gives its word back**, as far as it shows it. -/
theorem ofLine?_text (w : Word) : ofLine? (decode w).text = some w.listed := by
  rw [ofLine?, fields_text]
  show (List.mapM Operand.ofChars? _).bind _ = _
  rw [Operand.mapM_ofChars?, Option.bind_some, String.ofList_toList]
  exact assemble?_decode w

example : ofLine? "DRW V1, VA, 12" = some 0xD1AC := by decide +kernel

end Word
end ChipEight
