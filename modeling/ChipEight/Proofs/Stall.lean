import ChipEight.Proofs.ErrorLines
import ChipEight.Proofs.Run

/-!
# Stalling on an unknown word

A machine that is not strict reports a word that is no instruction and stays where it is. Nothing in
a cycle but an instruction touches the memory or the program counter, so the same word is fetched
again, for as long as nobody resets the machine or loads a program. Only the timers and the key
latches run down meanwhile.

* `Machine.step_unknown`: one cycle on an unknown word.
* `Machine.Stalled`: all that cycles which stall, key reports and questions for a redraw can change;
  `Engine.stalled_after` says that a run changes no more.
* `Engine.unknown_word_stalls`: what each step of such a run answers and logs, and what is left of
  the machine.
-/

namespace ChipEight

/-- Neither resets the machine nor loads a program. -/
def Action.keepsProgram : Action → Bool
  | .reset => false
  | .load _ => false
  | _ => true

namespace Machine

theorem step_unknown {o : Options} (lenient : o.strict = false) {m : Machine} {w : Word}
    (stray : m.instruction = .unknown w) : m.step o = (m.count.age, .ok false) :=
  step_of_execute stray (stray_of_lenient lenient w)

/-- What `n` cycles that stall make of a machine, on an unknown word or waiting for a key, with key
reports and questions for a redraw between them. -/
inductive Stalled (m : Machine) : Nat → Machine → Prop
  | intro {n : Nat} {delay sound : Byte} {keypad : Keypad} {redraw dirty : Bool}
      {cycles : Nat}
      (delay_eq : delay.toNat = m.delay.toNat - n) (sound_eq : sound.toNat = m.sound.toNat - n) :
      Stalled m n { m with delay, sound, keypad, redraw, dirty, cycles }

namespace Stalled

variable {m m' m'' : Machine} {n k : Nat}

theorem refl (m : Machine) : Stalled m 0 m :=
  .intro (Nat.sub_zero _).symm (Nat.sub_zero _).symm

theorem trans (h : Stalled m n m') (h' : Stalled m' k m'') : Stalled m (n + k) m'' := by
  cases h with
  | intro delay_eq sound_eq =>
      cases h' with
      | intro delay_eq' sound_eq' =>
          refine .intro ?_ ?_
          · rw [delay_eq', delay_eq, Nat.sub_sub]
          · rw [sound_eq', sound_eq, Nat.sub_sub]

theorem cycle (m : Machine) : Stalled m 1 m.count.age := by
  unfold age count
  exact .intro (toNat_countDown _) (toNat_countDown _)

/-- The memory and the program counter stay, and with them the instruction. -/
theorem instruction_eq (h : Stalled m n m') : m'.instruction = m.instruction := by
  cases h with
  | intro delay_eq sound_eq =>
      rfl

/-- All that the program works with is as it was, and the timers have run down. -/
theorem fields (h : Stalled m n m') :
    m'.pc = m.pc ∧ m'.memory = m.memory ∧ m'.registers = m.registers ∧ m'.index = m.index ∧
      m'.slots = m.slots ∧ m'.sp = m.sp ∧ m'.screen = m.screen ∧ m'.frames = m.frames ∧
      m'.delay.toNat = m.delay.toNat - n ∧ m'.sound.toNat = m.sound.toNat - n := by
  cases h with
  | intro delay_eq sound_eq =>
      exact ⟨rfl, rfl, rfl, rfl, rfl, rfl, rfl, rfl, delay_eq, sound_eq⟩

end Stalled
end Machine

namespace Engine

variable {e : Engine} {w : Word}

theorem stalled_perform (lenient : e.options.strict = false)
    (stray : e.machine.instruction = .unknown w) {action : Action}
    (kept : action.keepsProgram = true) :
    e.machine.Stalled (e.startOf action).length (e.perform action).engine.machine := by
  cases action with
  | reset =>
      cases kept
  | load program =>
      cases kept
  | step =>
      rw [perform_step_engine, step_engine, Machine.step_unknown lenient stray]
      exact .cycle e.machine
  | setKeys report =>
      obtain ⟨keypad, hkeys⟩ := e.setKeys_engine report
      show e.machine.Stalled 0 (e.setKeys report).engine.machine
      rw [hkeys]
      exact .intro rfl rfl
  | takeRedraw =>
      exact .intro rfl rfl
  | _ =>
      exact .refl e.machine

theorem stalled_after (lenient : e.options.strict = false)
    (stray : e.machine.instruction = .unknown w) {run : List Action}
    (kept : ∀ action ∈ run, action.keepsProgram = true) :
    e.machine.Stalled (e.starts run).length (e.after run).machine := by
  induction run generalizing e with
  | nil =>
      exact .refl e.machine
  | cons action rest ih =>
      obtain ⟨first, others⟩ := List.forall_mem_cons.1 kept
      have now := stalled_perform lenient stray first
      have later := ih (by rw [options_perform, lenient]) (now.instruction_eq.trans stray) others
      rw [after_cons, starts, List.length_append]
      exact now.trans later

/-- A step on an unknown word succeeds without a change to show, and reports the word and where it
stands. -/
theorem step_of_stray (lenient : e.options.strict = false)
    (stray : e.machine.instruction = .unknown w) :
    e.step.result = .ok false ∧
      LogLine.errors e.step.lines =
        [⟨.error, (Fault.unknownOpcode w e.machine.pc).message⟩] := by
  have stall : e.machine.stall? e.options = some (.unknownOpcode w e.machine.pc) := by
    rw [Machine.stall?, stray]
    simp [lenient]
  rw [step_result, Machine.step_unknown lenient stray, errors_step, stall]
  exact ⟨rfl, rfl⟩

/-- **An unknown word stalls the machine for good.** An engine that is not strict stands at a word
that is no instruction. In any run that neither resets it nor loads a program each step succeeds,
reports no change of the screen, and logs one error with that word and the place it stands at. After
the run the machine stands where it stood, with the same memory, registers, stack and screen, and
the timers have run down by the number of its steps, not below zero. -/
theorem unknown_word_stalls (lenient : e.options.strict = false)
    (stray : e.machine.instruction = .unknown e.machine.word) (run : List Action)
    (kept : ∀ action ∈ run, action.keepsProgram = true) :
    (∀ before later, run = before ++ .step :: later →
      let reply := (e.after before).perform .step
      reply.result = .ok (.flag false) ∧
      LogLine.errors reply.lines =
        [⟨.error, "Unknown opcode: " ++ Hex.padded 4 e.machine.word.toNat ++ " at 0x" ++
          Hex.padded 3 e.machine.pc⟩]) ∧
    let n := (e.starts run).length
    let m := e.machine
    let m' := (e.after run).machine
    m'.pc = m.pc ∧ m'.memory = m.memory ∧ m'.registers = m.registers ∧ m'.index = m.index ∧
    m'.slots = m.slots ∧ m'.sp = m.sp ∧ m'.screen = m.screen ∧ m'.frames = m.frames ∧
    m'.delay.toNat = m.delay.toNat - n ∧ m'.sound.toNat = m.sound.toNat - n := by
  constructor
  · -- The run before a step has left the machine at the same word.
    rintro before later rfl
    have stalled := stalled_after lenient stray (List.forall_mem_append.1 kept).1
    obtain ⟨result, errors⟩ := step_of_stray (e := e.after before)
      (by rw [options_after, lenient]) (stalled.instruction_eq.trans stray)
    rw [stalled.fields.1] at errors
    refine ⟨?_, errors⟩
    show perform.answered .flag .fault (e.after before).step.result = _
    rw [result]
    rfl
  · exact (stalled_after lenient stray kept).fields

/-- An engine that stands at a zero word, with both timers running. -/
def strayed : Engine where
  machine := { pc := 0x206, delay := 2, sound := 5, random := .cycle #[] }
  log := ⟨.warning, false⟩

/-- All keys are reported between two of three steps, and the redraw is asked for before the
last. -/
theorem unknown_word_stalls_strayed :
    let run := [.step, .setKeys (.group (List.replicate 16 (.state true))), .step, .takeRedraw]
    let m := (strayed.after (run ++ [.step])).machine
    LogLine.errors ((strayed.after run).perform .step).lines =
      [⟨.error, "Unknown opcode: 0000 at 0x206"⟩] ∧
    m.pc = 0x206 ∧ m.delay.toNat = 0 ∧ m.sound.toNat = 2 := by
  intro run m
  have stray : strayed.machine.instruction = .unknown strayed.machine.word := by decide +kernel
  obtain ⟨steps, pc, -, -, -, -, -, -, -, delay, sound⟩ :=
    unknown_word_stalls (e := strayed) rfl stray (run ++ [.step]) (by decide)
  have three : (strayed.starts (run ++ [.step])).length = 3 := rfl
  rw [three] at delay sound
  refine ⟨?_, pc, delay, sound⟩
  rw [(steps run [] rfl).2]
  decide +kernel

end Engine
end ChipEight
