import ChipEight.Proofs.Decoding
import ChipEight.Proofs.Latch
import ChipEight.Proofs.Stall
import ChipEight.Proofs.Transfer
import Mathlib.Order.Bounds.Basic
import Mathlib.Order.Fin.Basic

/-!
# Waiting for a key

`Fx0A` stays where it is as long as no latch is armed, while the timers go on. Once some latch is,
the next cycle takes the lowest armed key, whatever the countdowns are, and goes on.

* `Keypad.lowest?_eq_some_iff_isLeast`: the lowest armed key is the least of the armed ones.
* `Engine.waiting_after`: any number of steps that wait change nothing but the timers.
* `Engine.takesKey`: a step that finds a key armed takes the lowest one.
* `Engine.key_ends_wait`: waiting, the report that ends it, and the key that is taken.
-/

namespace ChipEight

namespace Keypad

theorem lowest?_eq_some_iff_isLeast (p : Keypad) (k : Nibble) :
    p.lowest? = some k ↔ IsLeast {j | p.latch j ≠ 0} k := by
  rw [lowest?_eq_some_iff, armed_iff]
  refine and_congr_right fun _ => ?_
  constructor
  · intro unarmed j hj
    refine Fin.not_lt.1 fun lower => hj ?_
    have idle := unarmed j lower
    rwa [← Bool.not_eq_true, armed_iff, not_not] at idle
  · intro least j lower
    rw [← Bool.not_eq_true, armed_iff]
    exact fun hj => Fin.not_lt.2 (least hj) lower

theorem lowest?_eq_none_iff (p : Keypad) : p.lowest? = none ↔ ∀ k, p.latch k = 0 := by
  rw [lowest?, List.find?_eq_none]
  simp only [List.mem_finRange, armed_iff, not_not, forall_const]

/-- Some key is armed exactly if there is a lowest one. -/
theorem exists_isLeast {p : Keypad} (armed : ∃ k, p.latch k ≠ 0) :
    ∃ key, IsLeast {k | p.latch k ≠ 0} key := by
  cases hlowest : p.lowest? with
  | none =>
      obtain ⟨k, hk⟩ := armed
      exact absurd (p.lowest?_eq_none_iff.1 hlowest k) hk
  | some key =>
      exact ⟨key, (p.lowest?_eq_some_iff_isLeast key).1 hlowest⟩

theorem age_of_idle {p : Keypad} (idle : ∀ k, p.latch k = 0) : p.age = p := by
  refine ext_latch fun k => ?_
  rw [latch_age, idle]

end Keypad

namespace Machine

/-- A cycle that waits with no key armed only lets the timers run down. -/
theorem step_waitKey_of_idle (o : Options) {m : Machine} {x : Nibble}
    (waits : m.instruction = .waitKey x) (idle : ∀ k, m.keypad.latch k = 0) :
    m.step o = (m.count.age, .ok false) := by
  refine step_of_execute waits ?_
  have unarmed : m.count.keypad.lowest? = none := m.keypad.lowest?_eq_none_iff.2 idle
  rw [execute, awaitKey, unarmed]

/-- A cycle that waits takes the lowest armed key. -/
theorem step_waitKey_of_lowest (o : Options) {m : Machine} {x key : Nibble}
    (waits : m.instruction = .waitKey x) (lowest : m.keypad.lowest? = some key) :
    m.step o =
      (({ m.count with keypad := m.keypad.consume key }.setV x (.ofNat 8 key.val)).next.age,
        .ok false) := by
  refine step_of_execute waits ?_
  have found : m.count.keypad.lowest? = some key := lowest
  rw [execute, awaitKey, found]
  rfl

end Machine

namespace Engine

variable {e : Engine} {x key : Nibble}

/-- A step puts the key into `Vx`, clears its latch and no other, and goes on. -/
structure TakesKey (e : Engine) (x key : Nibble) : Prop where
  result : e.step.result = .ok false
  stored : (e.step.engine.machine.v x).toNat = key.val
  register_eq : ∀ j, j ≠ x → e.step.engine.machine.v j = e.machine.v j
  pc_eq : e.step.engine.machine.pc = (e.machine.pc + 2) % 65536
  cleared : e.step.engine.machine.keypad.latch key = 0
  latch_eq : ∀ j, j ≠ key →
    e.step.engine.machine.keypad.latch j = e.machine.keypad.latch j - 1

theorem takesKey (waits : e.machine.instruction = .waitKey x)
    (least : IsLeast {k | e.machine.keypad.latch k ≠ 0} key) : e.TakesKey x key := by
  have hstep := Machine.step_waitKey_of_lowest e.options waits
    ((e.machine.keypad.lowest?_eq_some_iff_isLeast key).2 least)
  have latch (j : Nibble) :
      (e.machine.keypad.consume key).age.latch j =
        (if key = j then 0 else e.machine.keypad.latch j) - 1 := by
    rw [Keypad.latch_age, Keypad.latch_consume]
  have small : key.val < 2 ^ 8 := Nat.lt_trans key.isLt (by decide)
  refine ⟨?_, ?_, fun j other => ?_, ?_, ?_, fun j other => ?_⟩
  · rw [step_result, hstep]
  · rw [step_engine, hstep, Machine.v_age]
    refine (congrArg BitVec.toNat ((Machine.v_setV _ x x _).trans (if_pos rfl))).trans ?_
    rw [BitVec.toNat_ofNat, Nat.mod_eq_of_lt small]
  · rw [step_engine, hstep, Machine.v_age]
    exact (Machine.v_setV _ x j _).trans (if_neg other.symm)
  · rw [step_engine, hstep, Machine.pc_age]
    rfl
  · rw [step_engine, hstep]
    exact (latch key).trans (by rw [if_pos rfl])
  · rw [step_engine, hstep]
    exact (latch j).trans (by rw [if_neg other.symm])

/-- Steps that wait with no key armed succeed without a change to show, and let the timers run
down. -/
theorem waiting_after (waits : e.machine.instruction = .waitKey x)
    (idle : ∀ k, e.machine.keypad.latch k = 0) (n : Nat) :
    (∀ reply ∈ e.performAll (List.replicate n .step), reply.result = .ok (.flag false)) ∧
      e.machine.Stalled n (e.after (List.replicate n .step)).machine ∧
      (e.after (List.replicate n .step)).machine.keypad = e.machine.keypad := by
  induction n generalizing e with
  | zero =>
      refine ⟨?_, .refl e.machine, rfl⟩
      rw [List.replicate_zero, performAll]
      exact List.forall_mem_nil _
  | succ n ih =>
      have hstep := Machine.step_waitKey_of_idle e.options waits idle
      have now : e.machine.Stalled 1 e.step.engine.machine := by
        rw [step_engine, hstep]
        exact .cycle e.machine
      have same : e.step.engine.machine.keypad = e.machine.keypad := by
        rw [step_engine, hstep]
        exact Keypad.age_of_idle idle
      obtain ⟨results, later, kept⟩ :=
        ih (e := e.step.engine) (now.instruction_eq.trans waits) (by rwa [same])
      rw [List.replicate_succ, after_cons, perform_step_engine, Nat.add_comm n 1]
      refine ⟨?_, now.trans later, kept.trans same⟩
      rw [performAll, List.forall_mem_cons]
      refine ⟨?_, results⟩
      show perform.answered .flag .fault e.step.result = _
      rw [step_result, hstep]
      rfl

/-- The keys that a report says are down. -/
def reported (report : KeyReport) : Set Nibble := {k | (Action.setKeys report).reports k = true}

instance (report : KeyReport) (k : Nibble) : Decidable (k ∈ reported report) :=
  inferInstanceAs (Decidable ((Action.setKeys report).reports k = true))

theorem latch_report {e : Engine} (idle : ∀ k, e.machine.keypad.latch k = 0) (report : KeyReport)
    (k : Nibble) :
    (e.perform (.setKeys report)).engine.machine.keypad.latch k =
      if (Action.setKeys report).reports k then Keypad.duration else 0 := by
  refine (latch_perform (by simp) (by simp) k).trans ?_
  rw [idle]

/-- A report moves neither the program counter nor what it points to. -/
theorem place_report (e : Engine) (report : KeyReport) :
    (e.perform (.setKeys report)).engine.machine.pc = e.machine.pc ∧
      (e.perform (.setKeys report)).engine.machine.instruction = e.machine.instruction := by
  obtain ⟨keypad, hkeys⟩ := e.setKeys_engine report
  show (e.setKeys report).engine.machine.pc = _ ∧
    (e.setKeys report).engine.machine.instruction = _
  rw [hkeys]
  exact ⟨rfl, rfl⟩

/-- A step that waits, with no key armed before the report, takes the lowest key of the report. -/
theorem takesKey_of_report (waits : e.machine.instruction = .waitKey x)
    (idle : ∀ k, e.machine.keypad.latch k = 0) {report : KeyReport}
    (nonempty : (reported report).Nonempty) :
    let pressed := (e.perform (.setKeys report)).engine
    ∃ key, IsLeast (reported report) key ∧ pressed.TakesKey x key ∧
      ∀ j ∈ reported report, j ≠ key → pressed.step.engine.machine.keypad.latch j = 99 := by
  intro pressed
  have armed : {k | pressed.machine.keypad.latch k ≠ 0} = reported report := by
    ext k
    simp [pressed, latch_report idle, reported, Keypad.duration]
  obtain ⟨key, least⟩ : ∃ key, IsLeast (reported report) key := by
    rw [← armed] at nonempty ⊢
    exact Keypad.exists_isLeast nonempty
  have takes := takesKey ((e.place_report report).2.trans waits) (armed ▸ least)
  refine ⟨key, least, takes, fun j down other => ?_⟩
  have reports : (Action.setKeys report).reports j = true := down
  rw [takes.latch_eq j other, latch_report idle, if_pos reports]
  rfl

/-- **A key ends the wait.** A machine stands at a word `Fx0A`. While no latch is armed, any number
of steps succeeds, shows no change and lets only the timers run down; a report of some keys then
makes the next step take the lowest one of them and leaves the others at ninety-nine. Whenever some
latch is armed the next step takes the lowest armed key, clears its latch, takes one off every other
armed latch and goes on to the following word. -/
theorem key_ends_wait (e : Engine) (waits : e.machine.word &&& 0xF0FF = 0xF00A) :
    let m := e.machine
    ((∀ k, m.keypad.latch k = 0) → ∀ n,
      let steps := List.replicate n Action.step
      let stalled := e.after steps
      let m' := stalled.machine
      (∀ reply ∈ e.performAll steps, reply.result = .ok (.flag false)) ∧
      (m'.pc = m.pc ∧ m'.memory = m.memory ∧ m'.registers = m.registers ∧ m'.index = m.index ∧
        m'.slots = m.slots ∧ m'.sp = m.sp ∧ m'.screen = m.screen ∧ m'.keypad = m.keypad ∧
        m'.delay.toNat = m.delay.toNat - n ∧ m'.sound.toNat = m.sound.toNat - n) ∧
      ∀ report, (reported report).Nonempty →
        let pressed := (stalled.perform (.setKeys report)).engine
        pressed.machine.pc = m.pc ∧
        ∃ key, IsLeast (reported report) key ∧ pressed.TakesKey m.word.x key ∧
          ∀ j ∈ reported report, j ≠ key → pressed.step.engine.machine.keypad.latch j = 99) ∧
    ((∃ k, m.keypad.latch k ≠ 0) →
      ∃ key, IsLeast {k | m.keypad.latch k ≠ 0} key ∧ e.TakesKey m.word.x key) := by
  intro m
  have fetched : m.instruction = .waitKey m.word.x :=
    Instruction.decode_withX (by simp [Instruction.table]) waits
  constructor
  · intro idle n steps stalled m'
    obtain ⟨results, stall, keypad⟩ := waiting_after fetched idle n
    obtain ⟨pc, memory, registers, index, slots, sp, screen, -, delay, sound⟩ := stall.fields
    refine ⟨results, ⟨pc, memory, registers, index, slots, sp, screen, keypad, delay, sound⟩, ?_⟩
    intro report nonempty pressed
    have waiting : stalled.machine.instruction = .waitKey m.word.x :=
      stall.instruction_eq.trans fetched
    refine ⟨(stalled.place_report report).1.trans pc, takesKey_of_report waiting ?_ nonempty⟩
    rwa [keypad]
  · intro armed
    obtain ⟨key, least⟩ := Keypad.exists_isLeast armed
    exact ⟨key, least, takesKey fetched least⟩

/-- An engine that waits for a key, with the delay timer running. -/
def waiter (keypad : Keypad) : Engine where
  machine :=
    { memory := .writeAll .blank 0x200 [0xF3, 0x0A]
      delay := 10
      keypad
      random := .cycle #[] }
  log := ⟨.error, false⟩

/-- Three steps wait until keys two and seven are reported. With keys nine and eleven armed before,
the first of them is taken though it is about to run out. -/
theorem key_ends_wait_waiter :
    let pressed := .group ((List.finRange 16).map fun k => .state (k == 2 || k == 7))
    let waited := (waiter .idle).after (List.replicate 3 .step)
    let taken := (waited.perform (.setKeys pressed)).engine.step.engine.machine
    let worn := waiter ⟨Vector.ofFn fun k => if k = 9 then 1 else if k = 11 then 40 else 0⟩
    waited.machine.pc = 0x200 ∧ waited.machine.delay.toNat = 7 ∧
    ((taken.v 3).toNat = 2 ∧ taken.pc = 0x202 ∧ taken.keypad.latch 7 = 99) ∧
    (worn.step.engine.machine.v 3).toNat = 9 ∧ worn.step.engine.machine.keypad.latch 11 = 39 := by
  intro pressed waited taken worn
  have waits (keypad : Keypad) : (waiter keypad).machine.word = 0xF30A :=
    Machine.word_of_writeAll rfl (Nat.zero_le _)
  have place : Word.x 0xF30A = 3 := rfl
  obtain ⟨waiting, -⟩ := (waiter .idle).key_ends_wait (by rw [waits]; rfl)
  obtain ⟨-, ⟨pc, -, -, -, -, -, -, -, delay, -⟩, ends⟩ := waiting Keypad.latch_idle 3
  obtain ⟨placed, key, least, takes, others⟩ := ends pressed ⟨2, by decide⟩
  obtain rfl : key = 2 := least.unique ⟨by decide, show ∀ k, _ → 2 ≤ k by decide⟩
  obtain ⟨-, lowest⟩ := worn.key_ends_wait (by rw [waits]; rfl)
  obtain ⟨key, least, takes'⟩ := lowest ⟨9, by decide⟩
  obtain rfl : key = 9 := least.unique ⟨by decide, show ∀ k, _ → 9 ≤ k by decide⟩
  rw [waits, place] at takes takes'
  refine ⟨pc, delay, ⟨takes.stored, ?_, others 7 (by decide) (by decide)⟩, takes'.stored, ?_⟩
  · rw [takes.pc_eq, placed]
    rfl
  · rw [takes'.latch_eq 11 (by decide)]
    decide

end Engine
end ChipEight
