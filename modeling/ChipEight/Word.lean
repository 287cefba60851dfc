/-!
# Bytes and words

The machine's numbers: bytes, instruction words and nibbles, and the fields that an instruction
word is cut into.

* `Word.ofBytes`: the word of two bytes, high byte first; `Word.toBytes` undoes it.
* `Word.x`, `Word.y`, `Word.n`, `Word.kk`, `Word.nnn`: the fields of a word.
* `Word.ofInt?` and `bytesOfInts`: integers that come from outside, refused when out of range.
* `bytesOfInts_toNat` and `bytesOfInts_of_outside`: which lists of integers are bytes.
-/

namespace ChipEight

/-- A memory cell, a register or a timer. -/
abbrev Byte := BitVec 8

/-- An instruction word or a return address. -/
abbrev Word := BitVec 16

/-- A twelve-bit address inside an instruction word. -/
abbrev Address := BitVec 12

/-- Four bits: the number of a register or of a key, or the height of a sprite. -/
abbrev Nibble := Fin 16

instance neZero_sixteen : @NeZero Nat .ofOfNat0 16 := ⟨Nat.succ_ne_zero 15⟩

theorem Nibble.val_lt (x : Nibble) : x.val < 16 := x.isLt

/-- Why an integer is not a piece of machine data. -/
inductive RangeError where
  | word (value : Int)
  | byte
  deriving DecidableEq, Repr

/-- The text of a refusal. -/
def RangeError.message : RangeError → String
  | .word value => "Instruction word out of range: " ++ toString value
  | .byte => "bytes must be in range(0, 256)"

namespace Word

/-- The word of two bytes, high byte first. -/
def ofBytes (hi lo : Byte) : Word := hi ++ lo

/-- The two bytes of a word, high byte first. -/
def toBytes (w : Word) : Byte × Byte := ((w >>> 8).setWidth 8, w.setWidth 8)

/-- The nibble above the lowest `shift` bits. -/
def nibble (w : Word) (shift : Nat) : Nibble := Fin.ofNat 16 (w.toNat >>> shift)

/-- The second nibble, a register. -/
def x (w : Word) : Nibble := nibble w 8

/-- The third nibble, a register. -/
def y (w : Word) : Nibble := nibble w 4

/-- The last nibble. -/
def n (w : Word) : Nibble := nibble w 0

/-- The low byte. -/
def kk (w : Word) : Byte := w.setWidth 8

/-- The low twelve bits, an address. -/
def nnn (w : Word) : Address := w.setWidth 12

/-- The word of an integer, refused outside `0..65535`. -/
def ofInt? (value : Int) : Except RangeError Word :=
  if 0 ≤ value ∧ value < 65536 then .ok (BitVec.ofInt 16 value) else .error (.word value)

theorem ofInt?_toNat (w : Word) : ofInt? w.toNat = .ok w := by
  have h : ((w.toNat : Nat) : Int) < 65536 := by
    have := w.isLt
    omega
  simp [ofInt?, h]

theorem toNat_ofBytes (hi lo : Byte) : (ofBytes hi lo).toNat = 256 * hi.toNat + lo.toNat := by
  rw [ofBytes, BitVec.toNat_append, ← Nat.shiftLeft_add_eq_or_of_lt lo.isLt, Nat.shiftLeft_eq]
  omega

theorem toBytes_ofBytes (hi lo : Byte) : (ofBytes hi lo).toBytes = (hi, lo) := by
  have := hi.isLt
  have := lo.isLt
  rw [toBytes, Prod.mk.injEq]
  constructor <;> apply BitVec.eq_of_toNat_eq <;>
    simp only [BitVec.toNat_setWidth, BitVec.toNat_ushiftRight, toNat_ofBytes,
      Nat.shiftRight_eq_div_pow] <;> omega

theorem ofBytes_toBytes (w : Word) : ofBytes w.toBytes.1 w.toBytes.2 = w := by
  have := w.isLt
  apply BitVec.eq_of_toNat_eq
  rw [toNat_ofBytes]
  simp only [toBytes, BitVec.toNat_setWidth, BitVec.toNat_ushiftRight, Nat.shiftRight_eq_div_pow]
  omega

end Word

/-- The byte of an integer, refused outside `0..255`. -/
def byteOfInt (value : Int) : Except RangeError Byte :=
  if 0 ≤ value ∧ value < 256 then .ok (BitVec.ofInt 8 value) else .error .byte

/-- The bytes of a list of integers; one outside `0..255` refuses the whole list. -/
def bytesOfInts (values : List Int) : Except RangeError (List Byte) :=
  values.mapM byteOfInt

theorem byteOfInt_toNat (b : Byte) : byteOfInt b.toNat = .ok b := by
  have := b.isLt
  rw [byteOfInt, if_pos (by omega)]
  simp

theorem bytesOfInts_toNat (bytes : List Byte) :
    bytesOfInts (bytes.map fun b => (b.toNat : Int)) = .ok bytes := by
  unfold bytesOfInts
  induction bytes with
  | nil => rfl
  | cons b rest ih =>
    rw [List.map_cons, List.mapM_cons, byteOfInt_toNat, ih]
    rfl

/-- Integers in `0..255` are the values of bytes. -/
theorem exists_bytes_of_inside {values : List Int} (inside : ∀ v ∈ values, 0 ≤ v ∧ v ≤ 255) :
    ∃ bytes : List Byte, values = bytes.map fun b => (b.toNat : Int) := by
  induction values with
  | nil => exact ⟨[], rfl⟩
  | cons v rest ih =>
    obtain ⟨⟨hnonneg, hle⟩, later⟩ := List.forall_mem_cons.1 inside
    obtain ⟨bytes, rfl⟩ := ih later
    obtain ⟨n, rfl⟩ := Int.eq_ofNat_of_zero_le hnonneg
    have small : n % 256 = n := Nat.mod_eq_of_lt (by omega)
    refine ⟨BitVec.ofNat 8 n :: bytes, ?_⟩
    rw [List.map_cons, BitVec.toNat_ofNat, small]

theorem bytesOfInts_of_outside {values : List Int} (outside : ∃ v ∈ values, v < 0 ∨ 255 < v) :
    bytesOfInts values = .error .byte := by
  unfold bytesOfInts
  induction values with
  | nil =>
    obtain ⟨v, member, -⟩ := outside
    cases member
  | cons v rest ih =>
    rw [List.mapM_cons]
    by_cases inside : 0 ≤ v ∧ v < 256
    · have later : ∃ u ∈ rest, u < 0 ∨ 255 < u := by
        obtain ⟨u, member, range⟩ := outside
        rcases List.mem_cons.1 member with rfl | member
        · omega
        · exact ⟨u, member, range⟩
      rw [byteOfInt, if_pos inside, ih later]
      rfl
    · rw [byteOfInt, if_neg inside]
      rfl

/-- The byte one below, stopping at zero. -/
def countDown (b : Byte) : Byte := BitVec.ofNat 8 (b.toNat - 1)

@[simp] theorem toNat_countDown (b : Byte) : (countDown b).toNat = b.toNat - 1 := by
  have := b.isLt
  simp only [countDown, BitVec.toNat_ofNat]
  omega

/-- The byte 1 for a flag that is up and 0 otherwise. -/
def flagByte (up : Bool) : Byte := if up then 1 else 0

end ChipEight
