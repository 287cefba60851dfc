import ChipEight.Proofs.Decoding
import ChipEight.Proofs.Run

/-!
# Where the options matter

Whether a machine is strict matters only on a word that is no instruction, and which way it shifts
only on `8xyE`. Engines with different options that carry out the same actions run in lockstep as
long as no step meets such a word. On `8xyE` itself a machine that shifts to the right does what it
does on `8xy6`.

* `Instruction.Indifferent`: instructions that do the same under both options;
  `Machine.step_indifferent` says so of a step.
* `Engine.performAll_under`: a run under other options gets the same replies.
* `Engine.options_matter_only`: what each of the two options leaves alone, and the two shifts.
-/

namespace ChipEight

/-- Only an unknown word asks whether the machine is strict, and only a shift to the left asks which
way to shift. -/
def Instruction.Indifferent (o o' : Options) : Instruction → Prop
  | .unknown _ => o.strict = o'.strict
  | .shiftLeft _ => o.legacyShift = o'.legacyShift
  | _ => True

namespace Machine

theorem execute_indifferent {o o' : Options} {i : Instruction} (h : i.Indifferent o o')
    (m : Machine) : m.execute o' i = m.execute o i := by
  cases i with
  | unknown w =>
      have same : o.strict = o'.strict := h
      simp only [execute, stray, same]
  | shiftLeft x =>
      have same : o.legacyShift = o'.legacyShift := h
      simp only [execute, same]
  | _ =>
      rfl

theorem stall?_indifferent {o o' : Options} {m : Machine} (h : m.instruction.Indifferent o o') :
    m.stall? o' = m.stall? o := by
  unfold stall?
  cases hi : m.instruction with
  | unknown w =>
      rw [hi] at h
      have same : o.strict = o'.strict := h
      simp only [same]
  | _ =>
      rfl

theorem step_indifferent {o o' : Options} {m : Machine} (h : m.instruction.Indifferent o o') :
    m.step o' = m.step o := by
  unfold step
  rw [execute_indifferent h]

/-- A machine that shifts to the right on `8xyE` treats it as `8xy6`. -/
theorem execute_legacyShift {o : Options} (legacy : o.legacyShift = true) (m : Machine)
    (x : Nibble) : m.execute o (.shiftLeft x) = m.execute o (.shiftRight x) :=
  congrArg (EStateM.Result.ok ()) (congrArg next (if_pos legacy))

/-- A shift neither reads nor writes the memory, so machines that differ in their memory alone, and
stand at `8xyE` and at `8xy6` with the same `x`, do the same. -/
theorem step_legacyShift {o : Options} (legacy : o.legacyShift = true) {m : Machine}
    {memory : Memory} (left : m.word &&& 0xF00F = 0x800E)
    (right : { m with memory }.word &&& 0xF00F = 0x8006)
    (same : { m with memory }.word.x = m.word.x) :
    (m.step o).1.memory = m.memory ∧
      { m with memory }.step o = ({ (m.step o).1 with memory }, (m.step o).2) := by
  have hleft : m.instruction = .shiftLeft m.word.x :=
    Instruction.decode_eq_shiftLeft_iff.2 ⟨left, rfl⟩
  have hright : { m with memory }.instruction = .shiftRight m.word.x := by
    rw [← same]
    exact Instruction.decode_shiftRight right
  unfold step
  rw [hleft, hright, execute_legacyShift legacy]
  exact ⟨rfl, rfl⟩

end Machine

namespace Engine

/-- The engine with other options. -/
def under (o : Options) (e : Engine) : Engine := { e with options := o }

/-- A reply that differs in the options of its engine only. -/
def replyUnder {α : Type} (o : Options) (reply : Reply α) : Reply α :=
  { reply with engine := reply.engine.under o }

variable {o : Options} {e : Engine}

theorem loadInts_under (program : List Int) :
    (e.under o).loadInts program = replyUnder o (e.loadInts program) := by
  unfold loadInts
  cases bytesOfInts program with
  | error cause =>
      rfl
  | ok bytes =>
      by_cases large : Memory.capacity < bytes.length
      · simp only [load, if_pos large]
        rfl
      · simp only [load, if_neg large]
        rfl

theorem setKeys_under (report : KeyReport) :
    (e.under o).setKeys report = replyUnder o (e.setKeys report) := by
  unfold setKeys
  cases report.keys? <;> rfl

theorem step_under (h : e.machine.instruction.Indifferent e.options o) :
    (e.under o).step = replyUnder o e.step := by
  have hstep : (e.under o).machine.step (e.under o).options = e.machine.step e.options :=
    Machine.step_indifferent h
  have hstall : (e.under o).machine.stall? (e.under o).options = e.machine.stall? e.options :=
    Machine.stall?_indifferent h
  simp only [step, hstep, hstall]
  rfl

theorem perform_under {action : Action}
    (h : ∀ s ∈ e.startOf action, s.machine.instruction.Indifferent e.options o) :
    (e.under o).perform action = replyUnder o (e.perform action) := by
  cases action with
  | load program =>
      simp only [perform, loadInts_under]
      rfl
  | setKeys report =>
      simp only [perform, setKeys_under]
      rfl
  | step =>
      simp only [perform, step_under (h e List.mem_cons_self)]
      rfl
  | _ =>
      rfl

/-- Under other options a run gets the same replies as long as no step asks for them. -/
theorem performAll_under {run : List Action}
    (h : ∀ s ∈ e.starts run, s.machine.instruction.Indifferent e.options o) :
    (e.under o).performAll run = (e.performAll run).map (replyUnder o) := by
  induction run generalizing e with
  | nil =>
      rfl
  | cons action rest ih =>
      obtain ⟨now, later⟩ := List.forall_mem_append.1 h
      -- The first action keeps the options, so the later steps are asked about the same two.
      rw [← e.options_perform action] at later
      rw [performAll, performAll, List.map_cons, perform_under now, ← ih later]
      rfl

/-- **Options matter only where they are meant to.** Engines that are strict or not get the same
replies to the same actions, lines and machines included, as long as no step fetches a word that is
no instruction; engines that shift one way or the other do as long as no step fetches `8xyE`. A
machine that shifts to the right on `8xyE` makes of it what it makes of `8xy6` with the same `x` in
its place. -/
theorem options_matter_only (e : Engine) (run : List Action) :
    (∀ strict, let o := { e.options with strict }
      (∀ s ∈ e.starts run, s.machine.instruction ≠ .unknown s.machine.word) →
      (e.under o).performAll run = (e.performAll run).map (replyUnder o)) ∧
    (∀ legacyShift, let o := { e.options with legacyShift }
      (∀ s ∈ e.starts run, s.machine.word &&& 0xF00F ≠ 0x800E) →
      (e.under o).performAll run = (e.performAll run).map (replyUnder o)) ∧
    ∀ (o : Options) (m : Machine) (memory : Memory),
      let m' := { m with memory }
      o.legacyShift = true → m.word &&& 0xF00F = 0x800E → m'.word &&& 0xF00F = 0x8006 →
      m'.word.x = m.word.x →
      (m.step o).1.memory = m.memory ∧
      m'.step o = ({ (m.step o).1 with memory }, (m.step o).2) := by
  refine ⟨?_, ?_, ?_⟩
  · intro strict o known
    refine performAll_under fun s hs => ?_
    cases hi : s.machine.instruction with
    | unknown w =>
        obtain rfl : w = s.machine.word := Instruction.eq_of_decode_eq_unknown hi
        exact absurd hi (known s hs)
    | shiftLeft x =>
        exact (rfl : e.options.legacyShift = o.legacyShift)
    | _ =>
        trivial
  · intro legacyShift o other
    refine performAll_under fun s hs => ?_
    cases hi : s.machine.instruction with
    | unknown w =>
        exact (rfl : e.options.strict = o.strict)
    | shiftLeft x =>
        exact absurd (Instruction.decode_eq_shiftLeft_iff.1 hi).1 (other s hs)
    | _ =>
        trivial
  · intro o m memory m' legacy left right same
    exact Machine.step_legacyShift legacy left right same

/-- An engine that traces, with a program that loads five into `V1` and shifts it right. -/
def halver : Engine :=
  (boot {} (.cycle #[]) ⟨.debug, true⟩).after [.load [0x61, 0x05, 0x81, 0x26]]

/-- The memory of a machine that shifts left instead. -/
def doubled : Memory := halver.machine.memory.writeAll 0x200 [0x61, 0x05, 0x81, 0x2E]

theorem options_matter_only_halver :
    let strict : Options := { strict := true }
    let legacy : Options := { legacyShift := true }
    let left := { (halver.after [.step]).machine with memory := doubled }
    let right := { left with memory := halver.machine.memory }
    (halver.under strict).performAll [.step, .step] =
      (halver.performAll [.step, .step]).map (replyUnder strict) ∧
    (halver.under legacy).performAll [.step, .step] =
      (halver.performAll [.step, .step]).map (replyUnder legacy) ∧
    (left.step legacy).1.v 1 = 2 ∧
    right.step legacy =
      ({ (left.step legacy).1 with memory := halver.machine.memory }, (left.step legacy).2) := by
  intro strict legacy left right
  have alone := options_matter_only halver [.step, .step]
  have shifts := alone.2.2 legacy left halver.machine.memory rfl (by decide +kernel)
    (by decide +kernel) (by decide +kernel)
  exact ⟨alone.1 true (by decide +kernel), alone.2.1 true (by decide +kernel), by decide +kernel,
    shifts.2⟩

end Engine
end ChipEight
