import ChipEight.Proofs.Decoding
import ChipEight.Proofs.Effect
import ChipEight.Proofs.Hiding

/-!
# Keys reach a program only when it asks

The keypad is read by three instructions: two that skip on a key and one that waits for a key. All
others neither look at a latch nor change one, so as long as no step carries out one of the three,
what is reported about keys shows nowhere but in the latches themselves.

* `Word.asksKeys`: the words of the three instructions.
* `Machine.step_keyless`: a step on another word does the same whatever the keypad holds.
* `Engine.keys_reach_only_askers`: two runs that differ in their key reports cannot be told apart
  until one of the three is met.
-/

namespace ChipEight

/-- The words `Ex9E`, `ExA1` and `Fx0A`. -/
def Word.asksKeys (w : Word) : Bool :=
  [0xE09E, 0xE0A1, 0xF00A].contains (w &&& 0xF0FF)

/-- Does the instruction look at the keypad? -/
def Instruction.asksKeys : Instruction → Bool
  | .skipIfKey _ => true
  | .skipUnlessKey _ => true
  | .waitKey _ => true
  | _ => false

theorem Instruction.asksKeys_decode {w : Word} :
    w.asksKeys = false → (decode w).asksKeys = false := by
  refine decode_cases w ?_ fun _ => rfl
  simp +contextual [table, Row.withX, Row.withXY, Row.withByte, Row.withAddress, asksKeys,
    Word.asksKeys]

theorem Keypad.age_idle : Keypad.idle.age = Keypad.idle := by
  refine ext_latch fun k => ?_
  rw [latch_age, latch_idle]

namespace Machine

/-- The machine with no key armed. -/
def keyless (m : Machine) : Machine := { m with keypad := .idle }

@[simp] theorem instruction_keyless (m : Machine) : m.keyless.instruction = m.instruction :=
  rfl

theorem age_keyless (m : Machine) : m.keyless.age = m.age.keyless := by
  simp only [age, keyless, Keypad.age_idle]

theorem bypasses_keyless : Bypasses keyless := fun _ _ _ _ => rfl

/-- An instruction that does not look at the keypad does the same whatever the keypad holds. -/
theorem execute_keyless (o : Options) {i : Instruction} (h : i.asksKeys = false) (m : Machine) :
    m.keyless.execute o i = Outcome.map keyless (m.execute o i) := by
  cases i with
  | skipIfKey x =>
      cases h
  | skipUnlessKey x =>
      cases h
  | waitKey x =>
      cases h
  | call target =>
      exact enter_map bypasses_keyless m target
  | ret =>
      exact leave_map bypasses_keyless m
  | unknown w =>
      exact stray_map bypasses_keyless o m w
  | shiftLeft x =>
      simp only [execute]
      split <;> rfl
  | _ =>
      rfl

theorem step_keyless (o : Options) {m : Machine} (h : m.word.asksKeys = false) :
    m.keyless.step o = ((m.step o).1.keyless, (m.step o).2) := by
  have counted : m.keyless.count = m.count.keyless := rfl
  have asks : m.instruction.asksKeys = false := Instruction.asksKeys_decode h
  unfold step
  rw [counted, instruction_keyless, execute_keyless o asks]
  cases m.count.execute o m.instruction with
  | ok _ done =>
      show (done.keyless.age, Except.ok done.keyless.age.dirty) = _
      rw [age_keyless]
      rfl
  | error fault reached =>
      rfl

end Machine

/-- Is the action a report of keys, accepted or not? -/
def Action.isReport : Action → Bool
  | .setKeys _ => true
  | _ => false

namespace Engine

/-- The engine with no key armed. -/
def keyless (e : Engine) : Engine := { e with machine := e.machine.keyless }

/-- A reply without the keypad of its engine. -/
def keylessReply {α : Type} (reply : Reply α) : Reply α :=
  { reply with engine := reply.engine.keyless }

variable {e : Engine}

theorem loadInts_keyless (program : List Int) :
    e.keyless.loadInts program = keylessReply (e.loadInts program) := by
  unfold loadInts
  cases bytesOfInts program with
  | error cause =>
      rfl
  | ok bytes =>
      by_cases large : Memory.capacity < bytes.length
      · simp only [load, if_pos large]
        rfl
      · simp only [load, if_neg large]
        rfl

theorem step_keyless (h : e.machine.word.asksKeys = false) :
    e.keyless.step = keylessReply e.step := by
  have stepped : e.keyless.machine.step e.keyless.options =
      ((e.machine.step e.options).1.keyless, (e.machine.step e.options).2) :=
    Machine.step_keyless e.options h
  simp only [step, stepped]
  rfl

theorem perform_keyless {action : Action} (h : action.isReport = false)
    (mute : ∀ s ∈ e.startOf action, s.machine.word.asksKeys = false) :
    e.keyless.perform action = keylessReply (e.perform action) := by
  cases action with
  | setKeys report =>
      cases h
  | load program =>
      simp only [perform, loadInts_keyless]
      rfl
  | step =>
      simp only [perform, step_keyless (mute e List.mem_cons_self)]
      rfl
  | _ =>
      rfl

theorem keyless_perform_report {action : Action} (h : action.isReport = true) :
    (e.perform action).engine.keyless = e.keyless := by
  cases action with
  | setKeys report =>
      obtain ⟨keypad, hkeys⟩ := e.setKeys_engine report
      show (e.setKeys report).engine.keyless = e.keyless
      rw [hkeys]
      rfl
  | _ =>
      cases h

/-- The keypad matters to nothing but reports as long as no step asks for a key. -/
theorem hides_keypad :
    Hides (fun action => !action.isReport) keyless keylessReply
      (fun s => s.machine.word.asksKeys = false) where
  engine_see _ := rfl
  kept_step := rfl
  blind_hide := Iff.rfl
  perform_kept h mute := perform_keyless (by simpa using h) mute
  perform_dropped h := keyless_perform_report (by simpa using h)

/-- **Keys reach a program only when it asks.** Two engines may differ in their keypads. They carry
out runs that are the same but for reports of keys, accepted ones or not, any number of them at any
places. If no step of one run starts at `Ex9E`, `ExA1` or `Fx0A`, the replies to all other actions
are the same in both, results, lines and machines included, and so are the engines at the end, all
up to the keypad. -/
theorem keys_reach_only_askers (e e' : Engine) (run run' : List Action)
    (alike : e.keyless = e'.keyless)
    (same : run.filter (!·.isReport) = run'.filter (!·.isReport))
    (mute : ∀ s ∈ e.starts run, s.machine.word.asksKeys = false) :
    (e.repliesTo (!·.isReport) run).map keylessReply =
        (e'.repliesTo (!·.isReport) run').map keylessReply ∧
      (e.after run).keyless = (e'.after run').keyless := by
  -- both are told by the run without reports of the engine without a keypad
  have mute' : ∀ s ∈ e'.starts run', s.machine.word.asksKeys = false := by
    rw [← hides_keypad.forall_starts_iff, ← alike, ← same, hides_keypad.forall_starts_iff]
    exact mute
  constructor
  · rw [hides_keypad.repliesTo_eq mute, hides_keypad.repliesTo_eq mute', alike, same]
  · rw [hides_keypad.hide_after mute, hides_keypad.hide_after mute', alike, same]

/-- An engine that draws a glyph and jumps back to do so again. -/
def drawer : Engine :=
  (boot {} (.cycle #[]) ⟨.debug, true⟩).after [.load [0xD0, 0x05, 0x12, 0x00]]

/-- All keys down, or none of them. -/
def allKeys (down : Bool) : Action := .setKeys (.group (List.replicate 16 (.state down)))

theorem keys_reach_only_askers_drawer :
    let run := [allKeys true, .step, .step, allKeys false, .step]
    let run' := [.step, allKeys true, .step, .step]
    (drawer.after run).machine.keypad.latch 0 = 97 ∧
    (drawer.after run').machine.keypad.latch 0 = 98 ∧
    (drawer.repliesTo (!·.isReport) run).map keylessReply =
      (drawer.repliesTo (!·.isReport) run').map keylessReply ∧
    (drawer.after run).keyless = (drawer.after run').keyless := by
  intro run run'
  have alone := keys_reach_only_askers drawer drawer run run' rfl rfl (by decide +kernel)
  exact ⟨by decide +kernel, by decide +kernel, alone⟩

end Engine
end ChipEight
