import ChipEight.Instruction.Decode

/-!
# The row that decodes a word

Any two rows of the instruction table ask for different values of a bit that both look at. So a word
fits one row at most, and a row that fits a word decodes it, wherever in the table it stands.

* `Row.Clash`: two rows that no word fits both of.
* `Instruction.find?_of_fits`, `Instruction.decode_of_fits`, `Instruction.fits_of_decode`: decoding is
  reading by a row that fits.
* `Instruction.decode_withX`, `Instruction.decode_withXY`, `Instruction.decode_withByte`: the words
  that carry registers, and those that carry a register and a byte.
* `Instruction.decode_cases`: a property of decoded words, row by row.
* `Instruction.eq_of_decode_eq_unknown`: only a word itself is reported as unknown.
* `Instruction.decode_shiftRight`, `Instruction.decode_eq_shiftLeft_iff`: the two shifts, by the
  bits of their words.
* `Instruction.rows_in_any_order`: the rows may stand in any order.
-/

namespace ChipEight

namespace Row

/-- The rows ask for different values of a bit that both look at. -/
def Clash (row row' : Row) : Prop := row.pattern &&& row'.mask ≠ row'.pattern &&& row.mask

instance (row row' : Row) : Decidable (row.Clash row') := inferInstanceAs (Decidable (_ ≠ _))

theorem fits_iff (row : Row) (w : Word) : row.fits w = true ↔ w &&& row.mask = row.pattern := by
  rw [fits, beq_iff_eq]

theorem Clash.not_fits {row row' : Row} {w : Word} (clash : row.Clash row')
    (fits : row'.fits w = true) : row.fits w = false := by
  rw [fits_iff] at fits
  rw [← Bool.not_eq_true, fits_iff]
  intro first
  refine clash ?_
  rw [← first, ← fits, BitVec.and_assoc, BitVec.and_assoc, BitVec.and_comm row.mask]

theorem Clash.symm {row row' : Row} (clash : row.Clash row') : row'.Clash row :=
  Ne.symm clash

end Row

namespace Instruction

theorem table_clash : table.Pairwise Row.Clash := by
  decide

/-- A row that fits a word is the first one that does: the rows before it do not fit. -/
theorem find?_of_fits {rows : List Row} (clashes : rows.Pairwise Row.Clash) {row : Row}
    (member : row ∈ rows) {w : Word} (fits : row.fits w = true) :
    rows.find? (·.fits w) = some row := by
  obtain ⟨before, later, rfl⟩ := List.append_of_mem member
  rw [List.pairwise_append] at clashes
  rw [List.find?_eq_some_iff_append]
  refine ⟨fits, before, later, rfl, fun earlier hearlier => ?_⟩
  rw [(clashes.2.2 earlier hearlier row List.mem_cons_self).not_fits fits]
  rfl

/-- A row that fits a word decodes it. -/
theorem decode_of_fits (row : Row) (member : row ∈ table) {w : Word}
    (fits : row.fits w = true) : decode w = row.read w := by
  rw [decode, decodeBy, find?_of_fits table_clash member fits]

theorem read_ne_unknown {row : Row} (member : row ∈ table) (w w' : Word) :
    row.read w ≠ .unknown w' := by
  have all : ∀ row ∈ table, row.read w ≠ .unknown w' := by
    simp [table, Row.withX, Row.withXY, Row.withByte, Row.withAddress]
  exact all row member

/-- Only a word itself is reported as unknown. -/
theorem eq_of_decode_eq_unknown {w w' : Word} (h : decode w = .unknown w') : w' = w := by
  unfold decode decodeBy at h
  split at h
  next row found =>
    exact absurd h (read_ne_unknown (List.mem_of_find?_eq_some found) w w')
  next =>
    cases h
    rfl

/-- A word that does not decode to itself as unknown is read by a row that fits it. -/
theorem fits_of_decode {w : Word} {i : Instruction} (h : decode w = i) (known : i ≠ .unknown w) :
    ∃ row ∈ table, row.fits w = true ∧ row.read w = i := by
  unfold decode decodeBy at h
  split at h
  next row found =>
    have fits := List.find?_some found
    exact ⟨row, List.mem_of_find?_eq_some found, fits, h⟩
  next =>
    exact absurd h.symm known

theorem decode_withX {mask pattern : Word} {make : Nibble → Instruction}
    (member : .withX mask pattern make ∈ table) {w : Word} (h : w &&& mask = pattern) :
    decode w = make w.x :=
  decode_of_fits (.withX mask pattern make) member ((Row.fits_iff _ w).2 h)

theorem decode_withXY {mask pattern : Word} {make : Nibble → Nibble → Instruction}
    (member : .withXY mask pattern make ∈ table) {w : Word} (h : w &&& mask = pattern) :
    decode w = make w.x w.y :=
  decode_of_fits (.withXY mask pattern make) member ((Row.fits_iff _ w).2 h)

theorem decode_withByte {mask pattern : Word} {make : Nibble → Byte → Instruction}
    (member : .withByte mask pattern make ∈ table) {w : Word} (h : w &&& mask = pattern) :
    decode w = make w.x w.kk :=
  decode_of_fits (.withByte mask pattern make) member ((Row.fits_iff _ w).2 h)

/-- What holds of the word as every row that it fits would read it, and of the unknown word, holds of
the word as it is decoded. -/
@[elab_as_elim]
theorem decode_cases {motive : Instruction → Prop} (w : Word)
    (known : ∀ row ∈ table, w &&& row.mask = row.pattern → motive (row.read w))
    (unknown : motive (.unknown w)) : motive (decode w) := by
  by_cases h : decode w = .unknown w
  · rw [h]
    exact unknown
  · obtain ⟨row, member, fits, hread⟩ := fits_of_decode rfl h
    rw [← hread]
    exact known row member ((Row.fits_iff row w).1 fits)

/-- The words `8xy6`. -/
theorem decode_shiftRight {w : Word} (h : w &&& 0xF00F = 0x8006) : decode w = .shiftRight w.x :=
  decode_withX (by simp [table]) h

/-- The words `8xyE`. -/
theorem decode_eq_shiftLeft_iff {w : Word} {x : Nibble} :
    decode w = .shiftLeft x ↔ w &&& 0xF00F = 0x800E ∧ w.x = x := by
  constructor
  · intro h
    obtain ⟨row, member, fits, hread⟩ := fits_of_decode h nofun
    have only : ∀ row ∈ table, row.read w = .shiftLeft x →
        row.mask = 0xF00F ∧ row.pattern = 0x800E ∧ w.x = x := by
      simp [table, Row.withX, Row.withXY, Row.withByte, Row.withAddress]
    obtain ⟨hmask, hpattern, hx⟩ := only row member hread
    rw [Row.fits_iff, hmask, hpattern] at fits
    exact ⟨fits, hx⟩
  · rintro ⟨h, rfl⟩
    exact decode_withX (by simp [table]) h

/-! ### The rows in another order -/

/-- Whatever the order of the rows, the same one is found, or none. -/
theorem find?_of_perm {rows : List Row} (perm : rows.Perm table) (w : Word) :
    rows.find? (·.fits w) = table.find? (·.fits w) := by
  cases found : table.find? (·.fits w) with
  | some row =>
    have member : row ∈ rows := perm.mem_iff.2 (List.mem_of_find?_eq_some found)
    have fits := List.find?_some found
    exact find?_of_fits (perm.symm.pairwise table_clash Row.Clash.symm) member fits
  | none =>
    rw [List.find?_eq_none] at found ⊢
    exact fun row member => found row (perm.mem_iff.1 member)

theorem decodeIntBy_toNat (rows : List Row) (w : Word) :
    decodeIntBy rows w.toNat = .ok (w, decodeBy rows w) := by
  rw [decodeIntBy, Word.ofInt?_toNat]
  rfl

theorem decodeIntBy_of_outside (rows : List Row) {value : Int}
    (outside : value < 0 ∨ 65535 < value) : decodeIntBy rows value = .error (.word value) := by
  rw [decodeIntBy, Word.ofInt?, if_neg (by omega)]
  rfl

/-- **The order of the table does not matter.** However the rows are arranged, no word fits two of
them. For every word the first row that fits is the one that it is in the table as written, and the
word decodes to the same instruction. An integer that is no word is refused. -/
theorem rows_in_any_order {rows : List Row} (perm : rows.Perm table) :
    (rows.Pairwise fun row row' => ∀ w, row'.fits w = true → row.fits w = false) ∧
    (∀ w : Word, rows.find? (·.fits w) = table.find? (·.fits w) ∧
      decodeInt w.toNat = .ok (w, decode w) ∧ decodeIntBy rows w.toNat = decodeInt w.toNat) ∧
    ∀ value : Int, value < 0 ∨ 65535 < value → decodeIntBy rows value = .error (.word value) := by
  have clashes : rows.Pairwise Row.Clash := perm.symm.pairwise table_clash Row.Clash.symm
  refine ⟨clashes.imp fun clash w => clash.not_fits, fun w => ?_, fun value => ?_⟩
  · have same := find?_of_perm perm w
    refine ⟨same, decodeIntBy_toNat table w, ?_⟩
    rw [decodeInt, decodeIntBy_toNat, decodeIntBy_toNat, decodeBy, decodeBy, same]
  · exact decodeIntBy_of_outside rows

/-- The table from its last row to its first one: a shift, a word next to `00E0` and `00EE` that is
none, and the integers beside the words. -/
theorem rows_in_any_order_reversed :
    table.reverse.Perm table ∧
    decodeIntBy table.reverse 0x8AB6 = .ok (0x8AB6, .shiftRight 10) ∧
    decodeIntBy table.reverse 0x00E1 = .ok (0x00E1, .unknown 0x00E1) ∧
    decodeIntBy table.reverse (-1) = .error (.word (-1)) ∧
    decodeIntBy table.reverse 65536 = .error (.word 65536) := by
  have perm : table.reverse.Perm table := List.reverse_perm table
  obtain ⟨-, same, refused⟩ := rows_in_any_order perm
  have shift := same 0x8AB6
  have stray := same 0x00E1
  exact ⟨perm, shift.2.2.trans shift.2.1, stray.2.2.trans stray.2.1, refused (-1) (by decide),
    refused 65536 (by decide)⟩

end Instruction
end ChipEight
