import ChipEight.Proofs.Run
import ChipEight.Proofs.Transfer

/-!
# Loading a program

A program is checked as a whole before its first byte is placed: first that its members are bytes,
then that it fits. A refused one leaves everything as it is; an accepted one takes the place of as
many bytes behind the glyphs, and of nothing else.

* `Memory.values_writeAll`: a run of writes that does not wrap, as a piece of the memory exchanged
  for another one of the same length.
* `Memory.writeAll_writeAll`: a run of writes over a shorter one leaves no trace of it.
* `Engine.loadInts_of_outside`, `Engine.loadInts_of_large`, `Engine.loadInts_of_fits`: the three
  ways that loading can end.
* `Engine.load_exact_or_nothing`: what each of them leaves behind, and loading twice.
-/

namespace ChipEight

namespace Memory

/-- The values of all cells in the order of their addresses. -/
def values (m : Memory) : List Int := m.cells.toList.map fun b => (b.toNat : Int)

@[simp] theorem length_values (m : Memory) : m.values.length = 4096 := by
  simp [values]

theorem getElem_values (m : Memory) {a : Nat} (h : a < m.values.length) :
    m.values[a] = (m.read a).toNat := by
  rw [length_values] at h
  simp [values, read, Nat.mod_eq_of_lt h]

theorem read_writeAll_of_outside (m : Memory) {a : Nat} {bytes : List Byte}
    (fits : a + bytes.length ≤ 4096) {c : Nat} (hc : c < 4096)
    (outside : c < a ∨ a + bytes.length ≤ c) : (m.writeAll a bytes).read c = m.read c := by
  refine read_writeAll_of_forall_ne bytes m a c fun k hk => ?_
  omega

theorem values_writeAll (m : Memory) {a : Nat} {bytes : List Byte}
    (fits : a + bytes.length ≤ 4096) :
    (m.writeAll a bytes).values =
      m.values.take a ++ bytes.map (fun b => (b.toNat : Int)) ++
        m.values.drop (a + bytes.length) := by
  have before : (m.values.take a).length = a := by
    rw [List.length_take, length_values]
    omega
  refine List.ext_getElem ?_ fun i h _ => ?_
  · simp only [List.length_append, List.length_drop, List.length_map, length_values, before]
    omega
  · rw [length_values] at h
    simp only [List.append_assoc, getElem_values]
    rcases Nat.lt_or_ge i a with below | above
    · rw [m.read_writeAll_of_outside fits h (Or.inl below), List.getElem_append_left (by omega),
        List.getElem_take, getElem_values]
    · obtain ⟨k, rfl⟩ := Nat.exists_eq_add_of_le above
      rw [List.getElem_append_right (by omega)]
      simp only [before, Nat.add_sub_cancel_left]
      by_cases inside : k < bytes.length
      · rw [read_writeAll bytes (by omega) m a inside,
          List.getElem_append_left (by rwa [List.length_map]), List.getElem_map]
      · rw [m.read_writeAll_of_outside fits h (Or.inr (by omega)),
          List.getElem_append_right (by rw [List.length_map]; omega), List.getElem_drop,
          getElem_values]
        congr 3
        rw [List.length_map]
        omega

theorem writeAll_writeAll (m : Memory) (a : Nat) {bytes cover : List Byte}
    (covered : bytes.length ≤ cover.length) (short : cover.length ≤ 4096) :
    (m.writeAll a bytes).writeAll a cover = m.writeAll a cover := by
  refine ext_read fun c _ => ?_
  by_cases met : ∃ k, k < cover.length ∧ (a + k) % 4096 = c % 4096
  · obtain ⟨k, hk, same⟩ := met
    rw [read_eq_of_mod_eq _ same.symm, read_eq_of_mod_eq _ same.symm,
      read_writeAll cover short _ a hk, read_writeAll cover short _ a hk]
  · have missed (k : Nat) (hk : k < cover.length) : (a + k) % 4096 ≠ c % 4096 :=
      fun same => met ⟨k, hk, same⟩
    have missed' (k : Nat) (hk : k < bytes.length) : (a + k) % 4096 ≠ c % 4096 :=
      missed k (Nat.lt_of_lt_of_le hk covered)
    rw [read_writeAll_of_forall_ne cover _ a c missed,
      read_writeAll_of_forall_ne bytes _ a c missed',
      read_writeAll_of_forall_ne cover _ a c missed]

end Memory

theorem Refusal.message_tooLarge (size : Nat) :
    (Refusal.tooLarge size).message =
      "Program is " ++ toString size ++ " bytes, only 3584 fit in memory" := by
  have number : toString Memory.capacity = "3584" := by decide +kernel
  have joined : " bytes, only " ++ ("3584" ++ " fit in memory") =
      " bytes, only 3584 fit in memory" := by decide +kernel
  show "Program is " ++ toString size ++ " bytes, only " ++ toString Memory.capacity ++
    " fit in memory" = _
  rw [number, String.append_assoc, String.append_assoc, joined]

namespace Engine

theorem loadInts_of_outside (e : Engine) {program : List Int}
    (outside : ∃ v ∈ program, v < 0 ∨ 255 < v) :
    e.loadInts program = ⟨e, .error (.notBytes .byte), []⟩ := by
  rw [loadInts, bytesOfInts_of_outside outside]

theorem loadInts_toNat (e : Engine) (program : List Byte) :
    e.loadInts (program.map fun b => (b.toNat : Int)) = e.load program := by
  rw [loadInts, bytesOfInts_toNat]

theorem loadInts_of_large (e : Engine) {program : List Int}
    (inside : ∀ v ∈ program, 0 ≤ v ∧ v ≤ 255) (large : Memory.capacity < program.length) :
    e.loadInts program = ⟨e, .error (.tooLarge program.length), []⟩ := by
  obtain ⟨bytes, rfl⟩ := exists_bytes_of_inside inside
  rw [List.length_map] at large ⊢
  rw [loadInts_toNat, load_of_large e large]

/-- What an accepted program leaves behind. -/
def loaded (e : Engine) (program : List Byte) : Engine :=
  { e with machine :=
    { e.machine with memory := e.machine.memory.writeAll Memory.programStart program } }

theorem loadInts_of_fits (e : Engine) {program : List Byte}
    (fits : program.length ≤ Memory.capacity) :
    e.loadInts (program.map fun b => (b.toNat : Int)) =
      { engine := e.loaded program
        result := .ok ()
        lines := e.log.trace ("Loaded program: " ++ toString program.length ++ " bytes") } := by
  rw [loadInts_toNat, load_of_fits e fits]
  rfl

theorem loadInts_eq_ok_iff (e : Engine) (program : List Int) :
    (e.loadInts program).result = .ok () ↔
      ∃ bytes : List Byte, program = bytes.map (fun b => (b.toNat : Int)) ∧
        bytes.length ≤ Memory.capacity := by
  constructor
  · intro accepted
    have inside : ∀ v ∈ program, 0 ≤ v ∧ v ≤ 255 := by
      intro v member
      have range : ¬ (v < 0 ∨ 255 < v) := by
        intro outside
        rw [e.loadInts_of_outside ⟨v, member, outside⟩] at accepted
        cases accepted
      omega
    obtain ⟨bytes, rfl⟩ := exists_bytes_of_inside inside
    refine ⟨bytes, rfl, Nat.le_of_not_lt fun large => ?_⟩
    rw [loadInts_toNat, load_of_large e large] at accepted
    cases accepted
  · rintro ⟨bytes, rfl, fits⟩
    rw [loadInts_of_fits e fits]

theorem loaded_loaded (e : Engine) {p q : List Byte} (covered : p.length ≤ q.length)
    (fits : q.length ≤ Memory.capacity) : (e.loaded p).loaded q = e.loaded q := by
  have short : q.length ≤ 4096 := Nat.le_trans fits (by decide)
  simp only [loaded, Memory.writeAll_writeAll _ _ covered short]

/-- **Loading is exact or does nothing.** A program with a member that is no byte, or else one of
more than 3584 bytes, is refused, and the engine and its log stay as they are. Any other program
takes the place of as many bytes from `200` on, and nothing else changes; so a program that is
loaded over a shorter one leaves nothing of it. -/
theorem load_exact_or_nothing (e : Engine) :
    (∀ program : List Int,
      let reply := e.loadInts program
      let before := e.machine.memory
      let after := reply.engine.machine.memory
      ((∃ v ∈ program, v < 0 ∨ 255 < v) → reply = ⟨e, .error (.notBytes .byte), []⟩) ∧
      ((∀ v ∈ program, 0 ≤ v ∧ v ≤ 255) → 3584 < program.length →
        reply = ⟨e, .error (.tooLarge program.length), []⟩ ∧
        (Refusal.tooLarge program.length).message =
          "Program is " ++ toString program.length ++ " bytes, only 3584 fit in memory") ∧
      ((∀ v ∈ program, 0 ≤ v ∧ v ≤ 255) → program.length ≤ 3584 →
        reply.result = .ok () ∧
        reply.lines = e.log.trace ("Loaded program: " ++ toString program.length ++ " bytes") ∧
        reply.engine = { e with machine := { e.machine with memory := after } } ∧
        after.values =
          before.values.take 0x200 ++ program ++ before.values.drop (0x200 + program.length) ∧
        after.values.length = 4096 ∧
        ∀ a, a < 4096 → a < 0x200 ∨ 0x200 + program.length ≤ a →
          after.read a = before.read a)) ∧
    ∀ p q : List Int,
      (e.loadInts p).result = .ok () → ((e.loadInts p).engine.loadInts q).result = .ok () →
      p.length ≤ q.length →
      ((e.loadInts p).engine.loadInts q).engine = (e.loadInts q).engine := by
  constructor
  · intro program reply before after
    refine ⟨e.loadInts_of_outside, fun inside large => ?_, fun inside fits => ?_⟩
    · exact ⟨e.loadInts_of_large inside large, Refusal.message_tooLarge _⟩
    obtain ⟨bytes, rfl⟩ := exists_bytes_of_inside inside
    rw [List.length_map] at fits ⊢
    have hreply : reply = _ := e.loadInts_of_fits fits
    have hafter : after = before.writeAll 0x200 bytes := by
      show reply.engine.machine.memory = _
      rw [hreply]
      rfl
    have room : 0x200 + bytes.length ≤ 4096 := by omega
    refine ⟨by rw [hreply], by rw [hreply], ?_, ?_, after.length_values, fun a ha outside => ?_⟩
    · rw [hafter, hreply]
      rfl
    · rw [hafter, before.values_writeAll room]
    · rw [hafter, before.read_writeAll_of_outside room ha outside]
  · intro p q first second covered
    obtain ⟨p, rfl, pfits⟩ := (e.loadInts_eq_ok_iff p).1 first
    obtain ⟨q, rfl, qfits⟩ := (loadInts_eq_ok_iff _ q).1 second
    rw [List.length_map, List.length_map] at covered
    rw [loadInts_of_fits e pfits, loadInts_of_fits _ qfits, loadInts_of_fits e qfits]
    exact e.loaded_loaded covered qfits

/-- A new engine that traces. -/
def traced : Engine := boot {} (.cycle #[]) ⟨.debug, true⟩

/-- So many times the highest byte. -/
def filler (n : Nat) : List Int := List.replicate n 255

theorem length_filler (n : Nat) : (filler n).length = n :=
  List.length_replicate

theorem inside_filler (n : Nat) : ∀ v ∈ filler n, 0 ≤ v ∧ v ≤ 255 := by
  intro v member
  rw [List.eq_of_mem_replicate member]
  decide

/-- A negative member and one byte too many are refused. As many bytes as fit leave the cell before
them alone, and two bytes are lost under three. -/
theorem load_exact_or_nothing_traced :
    traced.loadInts [0x12, -1] = ⟨traced, .error (.notBytes .byte), []⟩ ∧
    traced.loadInts (filler 3585) = ⟨traced, .error (.tooLarge 3585), []⟩ ∧
    (traced.loadInts (filler 3584)).result = .ok () ∧
    (traced.loadInts (filler 3584)).engine.machine.memory.read 0x1FF = 0 ∧
    ((traced.loadInts [0x12, 0x34]).engine.loadInts [0xAB, 0xCD, 0xEF]).engine =
      (traced.loadInts [0xAB, 0xCD, 0xEF]).engine := by
  obtain ⟨loads, twice⟩ := traced.load_exact_or_nothing
  have outside := (loads [0x12, -1]).1 ⟨-1, by decide, by decide⟩
  obtain ⟨large, -⟩ := (loads (filler 3585)).2.1 (inside_filler _) (by rw [length_filler]; decide)
  obtain ⟨result, -, -, -, -, kept⟩ :=
    (loads (filler 3584)).2.2 (inside_filler _) (Nat.le_of_eq (length_filler _))
  have first : (traced.loadInts [0x12, 0x34]).result = .ok () :=
    ((loads [0x12, 0x34]).2.2 (by decide) (by decide)).1
  have second : ((traced.loadInts [0x12, 0x34]).engine.loadInts [0xAB, 0xCD, 0xEF]).result =
      .ok () := by
    obtain ⟨loads', -⟩ := (traced.loadInts [0x12, 0x34]).engine.load_exact_or_nothing
    exact ((loads' [0xAB, 0xCD, 0xEF]).2.2 (by decide) (by decide)).1
  refine ⟨outside, large.trans (by rw [length_filler]), result, ?_,
    twice _ _ first second (by decide)⟩
  exact (kept 0x1FF (by decide) (Or.inl (by decide))).trans (by decide +kernel)

end Engine
end ChipEight
