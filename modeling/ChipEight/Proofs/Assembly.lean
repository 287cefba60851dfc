import ChipEight.Proofs.Listing

/-!
# A listing gives its program back

Every entry of a listing keeps its word. Written out high byte first, the words are the program
again, without the odd byte that a listing leaves out. A program that follows on another one, of
even length, is listed from where the first one ends.

* `assemble`: words written out as bytes.
* `assemble_disassemble`: the words of a listing, written out.
* `disassemble_append`: the listing of two programs in a row.
* `listing_lossless`: these for every program, with the addresses, and what is refused.
-/

namespace ChipEight

/-- Words written out as bytes, high byte first. -/
def assemble (words : List Word) : List Byte :=
  words.flatMap fun w => [w.toBytes.1, w.toBytes.2]

@[simp] theorem assemble_nil : assemble [] = [] :=
  rfl

@[simp] theorem assemble_cons (w : Word) (rest : List Word) :
    assemble (w :: rest) = w.toBytes.1 :: w.toBytes.2 :: assemble rest :=
  rfl

theorem length_assemble (words : List Word) : (assemble words).length = 2 * words.length := by
  induction words with
  | nil =>
      rfl
  | cons w rest ih =>
      rw [assemble_cons, List.length_cons, List.length_cons, ih, List.length_cons]
      omega

/-- A listing ends where there are no two bytes left. -/
theorem length_lt_two_of_short {program : List Byte}
    (short : ∀ hi lo rest, program = hi :: lo :: rest → False) : program.length < 2 := by
  match program with
  | [] | [_] =>
      simp
  | hi :: lo :: rest =>
      exact absurd rfl (short hi lo rest)

theorem length_disassemble (origin : Int) (program : List Byte) :
    (disassemble origin program).length = program.length / 2 := by
  fun_induction disassemble origin program with
  | case1 origin hi lo rest ih =>
      rw [List.length_cons, ih, List.length_cons, List.length_cons]
      omega
  | case2 program origin short =>
      have few := length_lt_two_of_short short
      rw [List.length_nil]
      omega

theorem assemble_disassemble (origin : Int) (program : List Byte) :
    assemble ((disassemble origin program).map (·.word)) =
      program.take (2 * (program.length / 2)) := by
  fun_induction disassemble origin program with
  | case1 origin hi lo rest ih =>
      have two : 2 * ((hi :: lo :: rest).length / 2) = 2 * (rest.length / 2) + 2 := by
        rw [List.length_cons, List.length_cons]
        omega
      rw [List.map_cons, assemble_cons, ih, Word.toBytes_ofBytes, two, List.take_succ_cons,
        List.take_succ_cons]
  | case2 program origin short =>
      have few := length_lt_two_of_short short
      have none : 2 * (program.length / 2) = 0 := by omega
      rw [List.map_nil, assemble_nil, none, List.take_zero]

theorem disassemble_append (origin : Int) (p q : List Byte) (even : p.length % 2 = 0) :
    disassemble origin (p ++ q) =
      disassemble origin p ++ disassemble (origin + p.length) q := by
  fun_induction disassemble origin p with
  | case1 origin hi lo rest ih =>
      rw [List.length_cons, List.length_cons] at even
      have later : origin + ((hi :: lo :: rest).length : Nat) = origin + 2 + rest.length := by
        rw [List.length_cons, List.length_cons]
        omega
      rw [List.cons_append, List.cons_append, disassemble, ih (by omega), later,
        List.cons_append]
  | case2 p origin short =>
      have few := length_lt_two_of_short short
      obtain rfl : p = [] := List.eq_nil_of_length_eq_zero (by omega)
      simp

theorem disassembleInts_toNat (origin : Int) (program : List Byte) :
    disassembleInts origin (program.map fun b => (b.toNat : Int)) =
      .ok (disassemble origin program) := by
  rw [disassembleInts, bytesOfInts_toNat]
  rfl

theorem disassembleInts_of_outside (origin : Int) {values : List Int}
    (outside : ∃ v ∈ values, v < 0 ∨ 255 < v) : disassembleInts origin values = .error .byte := by
  rw [disassembleInts, bytesOfInts_of_outside outside]
  rfl

/-- **A listing loses nothing.** The bytes of every program are listed, from any origin, two to an
entry: the entries stand two addresses apart, and their words written out are the program without
its last byte if that is odd. Behind a program of even length any other one is listed as on its own,
from the address where the first one ends. Integers that are not all bytes have no listing. -/
theorem listing_lossless (origin : Int) :
    (∀ p : List Byte,
      let entries := disassemble origin p
      disassembleInts origin (p.map fun b => (b.toNat : Int)) = .ok entries ∧
      entries.length = p.length / 2 ∧
      (∀ k (h : k < entries.length), entries[k].address = origin + 2 * k) ∧
      assemble (entries.map (·.word)) = if p.length % 2 = 0 then p else p.dropLast) ∧
    (∀ p q : List Byte, p.length % 2 = 0 →
      disassemble origin (p ++ q) =
        disassemble origin p ++ disassemble (origin + p.length) q) ∧
    ∀ values : List Int, (∃ v ∈ values, v < 0 ∨ 255 < v) →
      disassembleInts origin values = .error .byte := by
  refine ⟨fun p => ?_, disassemble_append origin, fun _ => disassembleInts_of_outside origin⟩
  have length := length_disassemble origin p
  refine ⟨disassembleInts_toNat origin p, length, fun k h => ?_, ?_⟩
  · have inside : 2 * k + 1 < p.length := by omega
    have found := getElem?_disassemble origin p inside
    rw [List.getElem?_eq_getElem h, Option.some_inj] at found
    rw [found]
  · rw [assemble_disassemble]
    split
    next even =>
      exact List.take_of_length_le (by omega)
    next odd =>
      rw [List.dropLast_eq_take]
      congr 1
      omega

/-- Five bytes are two entries, from an origin below zero; two bytes and three more are listed
apart; and one member that is no byte leaves nothing. -/
theorem listing_lossless_oddProgram :
    let p : List Byte := [0x60, 0x05]
    let q : List Byte := [0x00, 0xEE, 0xFF]
    (disassemble (-2) (p ++ q)).length = 2 ∧
    assemble ((disassemble (-2) (p ++ q)).map (·.word)) = [0x60, 0x05, 0x00, 0xEE] ∧
    disassemble (-2) (p ++ q) = [⟨-2, 0x6005⟩] ++ disassemble 0 q ∧
    disassembleInts (-2) [0x60, 0x05, 256] = .error .byte := by
  intro p q
  obtain ⟨listed, append, refused⟩ := listing_lossless (-2)
  obtain ⟨-, length, -, written⟩ := listed (p ++ q)
  have even : p.length % 2 = 0 := by decide
  refine ⟨length.trans (by decide), written.trans (by decide), ?_, ?_⟩
  · exact append p q even
  · exact refused _ ⟨256, by decide, by decide⟩

end ChipEight
