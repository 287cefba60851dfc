import ChipEight.Proofs.Effect
import ChipEight.Proofs.Run

/-!
# Well-formed machines

A new machine is well-formed and every action keeps it so, hence every machine that a run reaches
is. `InRange` spells out all bounds, those that the types of the fields carry included.

* `Machine.WellFormed.step`: one cycle keeps the bounds.
* `Engine.inRange_after`: a run from a new engine stays inside them.
-/

namespace ChipEight
namespace Machine
namespace WellFormed

variable {m m' : Machine}

theorem boot (random : RandomBytes) : (Machine.boot random).WellFormed where
  pc_le := by
    show Memory.programStart ≤ 65537
    decide
  index_le := Nat.zero_le _
  sp_le := Nat.zero_le _
  latch_le k := by
    show Keypad.idle.latch k ≤ Keypad.duration
    rw [Keypad.latch_idle]
    exact Nat.zero_le _

theorem reset (m : Machine) : m.reset.WellFormed :=
  ⟨(boot m.random).pc_le, Nat.zero_le _, Nat.zero_le _, (boot m.random).latch_le⟩

theorem count (h : m.WellFormed) : m.count.WellFormed :=
  ⟨h.pc_le, h.index_le, h.sp_le, h.latch_le⟩

theorem age (h : m.WellFormed) : m.age.WellFormed := by
  unfold Machine.age
  refine ⟨h.pc_le, h.index_le, h.sp_le, fun k => ?_⟩
  rw [Keypad.latch_age]
  exact Nat.le_trans (Nat.sub_le _ _) (h.latch_le k)

theorem arm (h : m.WellFormed) (down : KeySet) : (m.arm down).WellFormed := by
  unfold Machine.arm
  refine ⟨h.pc_le, h.index_le, h.sp_le, fun k => ?_⟩
  rw [Keypad.latch_arm]
  split
  · exact Nat.le_refl _
  · exact h.latch_le k

theorem plain (h : m.WellFormed) (kept : Plain m m') : m'.WellFormed where
  pc_le := by
    rcases kept.pc_eq_or_lt with same | low
    · rw [same]
      exact h.pc_le
    · omega
  index_le := by
    rcases kept.index_eq_or_lt with same | low
    · rw [same]
      exact h.index_le
    · omega
  sp_le := by
    rw [kept.sp_eq]
    exact h.sp_le
  latch_le k := Nat.le_trans (kept.latch_le k) (h.latch_le k)

theorem executed (h : m.WellFormed) {i : Instruction} (run : Executed m i m') :
    m'.WellFormed := by
  cases run with
  | call target room storable =>
      have low := target.isLt
      refine ⟨?_, h.index_le, room, h.latch_le⟩
      show target.toNat ≤ 65537
      omega
  | @ret caller callers top =>
      have low := caller.isLt
      -- the caller is a word, so a return goes at most two bytes past the last one
      refine ⟨?_, h.index_le, Nat.le_trans (Nat.sub_le _ _) h.sp_le, h.latch_le⟩
      show caller.toNat + 2 ≤ 65537
      omega
  | plain flat kept =>
      exact h.plain kept

theorem step (h : m.WellFormed) (o : Options) : (m.step o).1.WellFormed := by
  rcases step_cases o m with ⟨done, executed, hstep⟩ | ⟨fault, -, hstep⟩
  · rw [hstep]
    exact (h.count.executed executed).age
  · rw [hstep]
    exact h.count

theorem acted (h : m.WellFormed) {o : Options} {action : Action}
    (act : m.Acted o action m') : m'.WellFormed := by
  cases act with
  | reset =>
      exact reset m
  | step =>
      exact h.step o
  | takeRedraw =>
      exact ⟨h.pc_le, h.index_le, h.sp_le, h.latch_le⟩
  | load known fits =>
      exact ⟨h.pc_le, h.index_le, h.sp_le, h.latch_le⟩
  | arm flat =>
      exact h.arm _
  | stay noReset noStep =>
      exact h

end WellFormed

/-- The bounds of everything that a machine holds. -/
structure InRange (m : Machine) : Prop where
  memory_length : m.memory.cells.toList.length = 4096
  registers_length : m.registers.cells.toList.length = 16
  register_le : ∀ x, (m.v x).toNat ≤ 255
  delay_le : m.delay.toNat ≤ 255
  sound_le : m.sound.toNat ≤ 255
  index_le : m.index ≤ 0xFFFF
  sp_le : m.sp ≤ 16
  slots_length : m.slots.toList.length = 16
  slot_le : ∀ caller ∈ m.slots.toList, caller.toNat ≤ 0xFFFF
  latches_length : m.keypad.latches.toList.length = 16
  latch_le : ∀ k, m.keypad.latch k ≤ 100
  rows_length : m.screen.rows.toList.length = 32
  pixels_length : m.screen.pixels.length = 32 * 64
  pc_le : m.pc ≤ 65537

theorem length_pixels (s : Screen) : s.pixels.length = 32 * 64 := by
  simp [Screen.pixels, List.length_flatMap, List.map_const']

/-- All bounds come down to the four that the types leave open. -/
theorem inRange_iff_wellFormed (m : Machine) : m.InRange ↔ m.WellFormed := by
  constructor
  · intro h
    exact ⟨h.pc_le, h.index_le, h.sp_le, h.latch_le⟩
  · intro h
    exact
      { memory_length := m.memory.cells.length_toList
        registers_length := m.registers.cells.length_toList
        register_le := fun x => Nat.le_of_lt_succ (m.v x).isLt
        delay_le := Nat.le_of_lt_succ m.delay.isLt
        sound_le := Nat.le_of_lt_succ m.sound.isLt
        index_le := h.index_le
        sp_le := h.sp_le
        slots_length := m.slots.length_toList
        slot_le := fun caller _ => Nat.le_of_lt_succ caller.isLt
        latches_length := m.keypad.latches.length_toList
        latch_le := h.latch_le
        rows_length := m.screen.rows.length_toList
        pixels_length := length_pixels m.screen
        pc_le := h.pc_le }

/-- A machine on which every number stands at its bound. -/
def brimful : Machine where
  index := 65535
  pc := 65537
  slots := .replicate stackDepth 0xFFFF
  sp := 16
  delay := 255
  sound := 255
  keypad := Keypad.idle.arm 0xFFFF
  random := .cycle #[0xFF]

end Machine

namespace Engine

theorem wellFormed_after
    {e : Engine} (h : e.machine.WellFormed) (actions : List Action) :
    (e.after actions).machine.WellFormed := by
  refine after_induction (motive := fun e => e.machine.WellFormed) ?_ h actions
  intro e action h
  exact h.acted (e.perform_acted action)

/-- Every machine that a new engine reaches is in range, and a cycle never leaves the range. -/
theorem inRange_after :
    (∀ options random log actions,
      ((Engine.boot options random log).after actions).machine.InRange) ∧
    ∀ options (m : Machine), m.InRange → (m.step options).1.InRange := by
  constructor
  · intro options random log actions
    rw [Machine.inRange_iff_wellFormed]
    exact wellFormed_after (.boot random) actions
  · intro options m h
    rw [Machine.inRange_iff_wellFormed] at h ⊢
    exact h.step options

theorem inRange_step_brimful :
    Machine.brimful.InRange ∧ (Machine.brimful.step {}).1.InRange := by
  have armed := (Machine.WellFormed.boot (.cycle #[])).arm 0xFFFF
  have h : Machine.brimful.InRange := by
    rw [Machine.inRange_iff_wellFormed]
    exact ⟨by decide, by decide, by decide, armed.latch_le⟩
  exact ⟨h, inRange_after.2 {} Machine.brimful h⟩

end Engine
end ChipEight
