import ChipEight.Machine

/-!
# Reading back what was written

A run of writes no longer than the memory puts each byte where it belongs, also where it wraps from
the last address to the first.

* `writeAll_append`: runs of writes that follow on are one run.
* `read_writeAll`, `slice_writeAll`: the bytes of a run are read back at their addresses, one by one
  and together.
* `writeAll_eq_self`: writing what is there already changes nothing.
* `length_upTo`, `getElem_upTo`: the first registers as a run of bytes.
* `Machine.word_of_writeAll`: a word that was written where the program counter points is fetched.
-/

namespace ChipEight

namespace Registers

theorem length_upTo (v : Registers) (x : Nibble) : (v.upTo x).length = x.val + 1 := by
  have room : x.val + 1 ≤ 16 := x.isLt
  rw [upTo, List.length_take, Vector.length_toList, Nat.min_eq_left room]

/-- The places of the first registers are their numbers. -/
theorem lt_length_upTo_iff (v : Registers) {x : Nibble} {k : Nat} :
    k < (v.upTo x).length ↔ ∃ j : Nibble, j ≤ x ∧ j.val = k := by
  rw [length_upTo]
  constructor
  · intro h
    have within : k ≤ x.val := Nat.le_of_lt_succ h
    exact ⟨⟨k, Nat.lt_of_le_of_lt within x.isLt⟩, within, rfl⟩
  · rintro ⟨j, hj, rfl⟩
    exact Nat.lt_succ_of_le hj

theorem getElem_upTo (v : Registers) (x j : Nibble) (h : j.val < (v.upTo x).length) :
    (v.upTo x)[j.val] = v.get j := by
  simp [upTo, get]

end Registers

namespace Memory

theorem read_eq_of_mod_eq (m : Memory) {a b : Nat} (h : a % 4096 = b % 4096) :
    m.read a = m.read b := by
  rw [← read_mod m a, h, read_mod]

theorem writeAll_append
    (m : Memory) (a : Nat) (bytes more : List Byte) :
    m.writeAll a (bytes ++ more) =
      (m.writeAll a bytes).writeAll (a + bytes.length) more := by
  induction bytes generalizing m a with
  | nil =>
      rfl
  | cons b rest ih =>
      rw [List.cons_append, writeAll, writeAll, ih, List.length_cons,
        Nat.add_assoc, Nat.add_comm 1]

theorem read_writeAll
    (bytes : List Byte) (hlength : bytes.length ≤ 4096)
    (m : Memory) (a : Nat) {k : Nat} (hk : k < bytes.length) :
    (m.writeAll a bytes).read (a + k) = bytes[k] := by
  induction bytes generalizing m a k with
  | nil =>
      cases hk
  | cons b rest ih =>
      rw [List.length_cons] at hlength hk
      cases k with
      | zero =>
          rw [writeAll, read_writeAll_of_forall_ne, read_write]
          · simp
          · intro j hj
            omega
      | succ k =>
          have hk' : k < rest.length := by omega
          rw [writeAll, show a + (k + 1) = a + 1 + k by omega, ih (by omega) _ _ hk']
          rfl

theorem write_eq_self {m : Memory} {a : Nat} {b : Byte} (same : b = m.read a) :
    m.write a b = m := by
  refine ext_read fun c _ => ?_
  rw [read_write]
  split
  next here =>
    rw [same, m.read_eq_of_mod_eq here]
  next =>
    rfl

theorem writeAll_eq_self
    (bytes : List Byte) (m : Memory) (a : Nat)
    (same : ∀ k (h : k < bytes.length), bytes[k] = m.read (a + k)) :
    m.writeAll a bytes = m := by
  induction bytes generalizing a with
  | nil =>
      rfl
  | cons b rest ih =>
      have first : b = m.read a := same 0 (Nat.succ_pos _)
      rw [writeAll, write_eq_self first]
      refine ih (a + 1) fun k hk => ?_
      have later := same (k + 1) (Nat.succ_lt_succ hk)
      rwa [show a + (k + 1) = a + 1 + k by omega] at later

theorem length_slice (m : Memory) (a n : Nat) : (m.slice a n).length = n := by
  simp [slice]

theorem getD_slice (m : Memory) (a n k : Nat) :
    (m.slice a n).getD k 0 = if k < n then m.read (a + k) else 0 := by
  by_cases h : k < n <;> simp [slice, h]

theorem slice_succ (m : Memory) (a n : Nat) :
    m.slice a (n + 1) = m.read a :: m.slice (a + 1) n := by
  rw [slice, List.range_succ_eq_map, List.map_cons, List.map_map]
  refine congrArg (m.read a :: ·) (List.map_congr_left fun k _ => ?_)
  show m.read (a + (k + 1)) = m.read (a + 1 + k)
  rw [Nat.add_assoc, Nat.add_comm 1 k]

theorem slice_writeAll (m : Memory) (a : Nat) {bytes : List Byte} (short : bytes.length ≤ 4096) :
    (m.writeAll a bytes).slice a bytes.length = bytes := by
  refine List.ext_getElem (length_slice _ _ _) fun k _ hk => ?_
  simp only [slice, List.getElem_map, List.getElem_range]
  exact read_writeAll bytes short m a hk

end Memory

theorem Machine.word_of_writeAll
    {m : Machine} {memory : Memory} {w : Word} {more : List Byte}
    (placed : m.memory = memory.writeAll m.codeAddress (w.toBytes.1 :: w.toBytes.2 :: more))
    (short : more.length ≤ 4094) :
    m.word = w := by
  have fits : (w.toBytes.1 :: w.toBytes.2 :: more).length ≤ 4096 := Nat.add_le_add_right short 2
  have high : m.memory.read m.codeAddress = w.toBytes.1 := by
    rw [placed]
    exact Memory.read_writeAll _ fits memory _ (Nat.succ_pos _)
  have low : m.memory.read (m.codeAddress + 1) = w.toBytes.2 := by
    rw [placed]
    exact Memory.read_writeAll _ fits memory _ (Nat.succ_lt_succ (Nat.succ_pos _))
  rw [word, high, low, Word.ofBytes_toBytes]

end ChipEight
