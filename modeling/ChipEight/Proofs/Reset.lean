import ChipEight.Proofs.Effect
import ChipEight.Proofs.Run

/-!
# A reset leaves no past

After a reset an engine does what a new one does that is fed with the bytes still to come: only its
counters go on from where they were, and no instruction reads those. So two engines with the same
options cannot be told apart after a reset, whatever went before it.

* `Machine.execute_offset`, `Machine.step_offset`: cycles do not see how the counters and the random
  bytes are numbered.
* `Engine.performAll_reset`: a run after a reset is a run of a new engine.
* `Engine.reset_erases_history`: the same calls after a reset get the same answers.
-/

namespace ChipEight

namespace RandomBytes

/-- The bytes that are still to come. -/
def upcoming (r : RandomBytes) (n : Nat) : Byte := r.supply (r.drawn + n)

/-- The bytes that are still to come, as a new supply. -/
def rest (r : RandomBytes) : RandomBytes := ⟨r.upcoming, 0⟩

end RandomBytes

namespace Machine

/-- The machine with its counters and its place among the random bytes moved on by a past. -/
def offset (past m : Machine) : Machine :=
  { m with
    random := ⟨past.random.supply, past.random.drawn + m.random.drawn⟩
    cycles := past.cycles + m.cycles
    frames := past.frames + m.frames }

/-- The machine is fed with the bytes that were still to come at the end of a past. -/
def FedAfter (past m : Machine) : Prop := m.random.supply = past.random.upcoming

variable {past m : Machine}

@[simp] theorem memory_offset : (past.offset m).memory = m.memory :=
  rfl

@[simp] theorem index_offset : (past.offset m).index = m.index :=
  rfl

@[simp] theorem keypad_offset : (past.offset m).keypad = m.keypad :=
  rfl

@[simp] theorem v_offset (x : Nibble) : (past.offset m).v x = m.v x :=
  rfl

theorem next_random_offset (fed : FedAfter past m) :
    (past.offset m).random.next = m.random.next := by
  rw [RandomBytes.next, RandomBytes.next, fed]
  rfl

theorem upcoming_offset {past' : Machine}
    (fed : ∀ n, past.random.upcoming n = past'.random.upcoming n) (m : Machine) (n : Nat) :
    (past.offset m).random.upcoming n = (past'.offset m).random.upcoming n := by
  simp only [RandomBytes.upcoming, offset, Nat.add_assoc]
  exact fed (m.random.drawn + n)

theorem bypasses_offset : Bypasses past.offset := fun _ _ _ _ => rfl

theorem skipOnKey_offset (key : Nibble) (wanted : Bool) :
    (past.offset m).skipOnKey key wanted = past.offset (m.skipOnKey key wanted) := by
  simp only [skipOnKey, keypad_offset]
  by_cases armed : m.keypad.armed key = true
  · simp only [armed]
    rfl
  · simp only [armed]
    rfl

theorem awaitKey_offset (x : Nibble) :
    (past.offset m).awaitKey x = past.offset (m.awaitKey x) := by
  simp only [awaitKey, keypad_offset]
  cases m.keypad.lowest? <;> rfl

/-- No instruction sees how the counters and the random bytes are numbered. -/
theorem execute_offset (o : Options) (fed : FedAfter past m) (i : Instruction) :
    (past.offset m).execute o i = Outcome.map past.offset (m.execute o i) := by
  cases i with
  | call target =>
      exact enter_map bypasses_offset m target
  | ret =>
      exact leave_map bypasses_offset m
  | unknown w =>
      exact stray_map bypasses_offset o m w
  | shiftLeft x =>
      simp only [execute]
      split <;> rfl
  | skipIfKey x =>
      exact congrArg (EStateM.Result.ok ()) (skipOnKey_offset _ _)
  | skipUnlessKey x =>
      exact congrArg (EStateM.Result.ok ()) (skipOnKey_offset _ _)
  | waitKey x =>
      exact congrArg (EStateM.Result.ok ()) (awaitKey_offset x)
  | random x mask =>
      simp only [execute, next_random_offset fed]
      rfl
  | loadRegisters x =>
      simp only [execute, memory_offset, index_offset, v_offset]
      generalize Registers.ofFn _ = registers
      rfl
  | _ =>
      rfl

theorem offset_boot (m : Machine) : (boot ⟨m.random.supply, 0⟩).offset m = m := by
  simp [offset, boot]

/-- The supply of random bytes is never exchanged: a machine is its own offset from a past without
any draw, and so is what an instruction makes of it. -/
theorem supply_execute {o : Options} {done : Machine} {i : Instruction}
    (hrun : m.execute o i = .ok () done) : done.random.supply = m.random.supply := by
  have fed : FedAfter (boot ⟨m.random.supply, 0⟩) m := by
    funext n
    simp [RandomBytes.upcoming, boot]
  have hoffset := execute_offset o fed i
  rw [offset_boot, hrun] at hoffset
  exact congrArg (·.random.supply) (EStateM.Result.ok.inj hoffset).2

theorem step_offset (o : Options) (fed : FedAfter past m) :
    (past.offset m).step o = (past.offset (m.step o).1, (m.step o).2) := by
  -- the fetch reads the memory and the program counter, which a past does not move
  have counted : (past.offset m).count = past.offset m.count := rfl
  have same : (past.offset m).instruction = m.instruction := rfl
  have hrun := execute_offset o (m := m.count) fed m.instruction
  unfold step
  rw [counted, same, hrun]
  cases m.count.execute o m.instruction <;> rfl

theorem supply_acted {o : Options} {m' : Machine} {action : Action} (act : m.Acted o action m') :
    m'.random.supply = m.random.supply := by
  cases act with
  | step =>
      rcases step_outcome o m with ⟨done, hrun, hstep⟩ | ⟨fault, -, hstep⟩
      · rw [hstep]
        exact (supply_execute hrun : done.random.supply = m.count.random.supply)
      · rw [hstep]
        rfl
  | arm flat =>
      unfold arm
      rfl
  | _ =>
      rfl

end Machine

namespace Engine

/-- The engine with its machine moved on by a past. -/
def offset (past : Machine) (e : Engine) : Engine := { e with machine := past.offset e.machine }

/-- A reply after a past differs in the machine's numbering only. -/
def offsetReply {α : Type} (past : Machine) (reply : Reply α) : Reply α :=
  { reply with engine := reply.engine.offset past }

variable {past : Machine} {e : Engine}

theorem load_offset (program : List Byte) :
    (e.offset past).load program = offsetReply past (e.load program) := by
  by_cases large : Memory.capacity < program.length
  · simp only [load, if_pos large]
    rfl
  · simp only [load, if_neg large]
    rfl

theorem loadInts_offset (program : List Int) :
    (e.offset past).loadInts program = offsetReply past (e.loadInts program) := by
  unfold loadInts
  cases bytesOfInts program with
  | error cause =>
      rfl
  | ok bytes =>
      exact load_offset bytes

theorem arm_offset (down : KeySet) : (e.offset past).arm down = (e.arm down).offset past := by
  unfold arm Machine.arm
  rfl

theorem setKeys_offset (report : KeyReport) :
    (e.offset past).setKeys report = offsetReply past (e.setKeys report) := by
  unfold setKeys
  cases report.keys? with
  | ok down =>
      simp only [arm_offset]
      rfl
  | error refusal =>
      rfl

theorem step_offset (fed : Machine.FedAfter past e.machine) :
    (e.offset past).step = offsetReply past e.step := by
  have hstep : (e.offset past).machine.step (e.offset past).options =
      (past.offset (e.machine.step e.options).1, (e.machine.step e.options).2) :=
    Machine.step_offset e.options fed
  simp only [step, hstep]
  rfl

theorem perform_offset (fed : Machine.FedAfter past e.machine) (action : Action) :
    (e.offset past).perform action = offsetReply past (e.perform action) := by
  cases action with
  | load program =>
      simp only [perform, loadInts_offset]
      rfl
  | setKeys report =>
      simp only [perform, setKeys_offset]
      rfl
  | step =>
      simp only [perform, step_offset fed]
      rfl
  | _ =>
      rfl

theorem fedAfter_perform (fed : Machine.FedAfter past e.machine) (action : Action) :
    Machine.FedAfter past (e.perform action).engine.machine :=
  (Machine.supply_acted (e.perform_acted action)).trans fed

theorem performAll_offset (fed : Machine.FedAfter past e.machine) (run : List Action) :
    (e.offset past).performAll run = (e.performAll run).map (offsetReply past) := by
  induction run generalizing e with
  | nil =>
      rfl
  | cons action rest ih =>
      simp only [performAll, perform_offset fed, List.map_cons]
      rw [← ih (fedAfter_perform fed action)]
      rfl

theorem after_offset (fed : Machine.FedAfter past e.machine) (run : List Action) :
    (e.offset past).after run = (e.after run).offset past := by
  induction run generalizing e with
  | nil =>
      rfl
  | cons action rest ih =>
      rw [after_cons, after_cons, perform_offset fed, ← ih (fedAfter_perform fed action)]
      rfl

/-- A reset engine is a new one behind its own past. -/
theorem reset_eq_offset (e : Engine) :
    e.reset = (boot e.options e.machine.random.rest e.log).offset e.machine := by
  simp only [reset, offset, boot, Machine.reset_eq, Machine.offset, Machine.boot, RandomBytes.rest,
    Nat.add_zero]

/-- Where the log stands matters to no call but the one that switches it over. -/
theorem perform_relog (e : Engine) (log : Log) {action : Action} (h : action ≠ .toggleVerbose) :
    ({ e with log }.perform action).result = (e.perform action).result ∧
      ∃ log', ({ e with log }.perform action).engine =
        { (e.perform action).engine with log := log' } := by
  cases action with
  | toggleVerbose =>
      exact absurd rfl h
  | load program =>
      simp only [perform, loadInts]
      cases bytesOfInts program with
      | error cause =>
          exact ⟨rfl, log, rfl⟩
      | ok bytes =>
          by_cases large : Memory.capacity < bytes.length
          · simp only [load, if_pos large]
            exact ⟨trivial, log, rfl⟩
          · simp only [load, if_neg large]
            exact ⟨trivial, log, rfl⟩
  | setKeys report =>
      simp only [perform, setKeys]
      cases report.keys? with
      | ok down =>
          exact ⟨rfl, log, rfl⟩
      | error refusal =>
          exact ⟨rfl, log, rfl⟩
  | setVerbose on =>
      exact ⟨rfl, log.setVerbose on, rfl⟩
  | _ =>
      exact ⟨rfl, log, rfl⟩

theorem performAll_relog {run : List Action} (untoggled : ∀ action ∈ run, action ≠ .toggleVerbose)
    (e : Engine) (log : Log) :
    (({ e with log } : Engine).performAll run).map (·.result) =
        (e.performAll run).map (·.result) ∧
      (({ e with log } : Engine).after run).machine = (e.after run).machine := by
  induction run generalizing e log with
  | nil =>
      exact ⟨rfl, rfl⟩
  | cons action rest ih =>
      obtain ⟨h, later⟩ := List.forall_mem_cons.1 untoggled
      obtain ⟨hresult, log', hengine⟩ := e.perform_relog log h
      obtain ⟨hresults, hmachine⟩ := ih later (e.perform action).engine log'
      rw [performAll, performAll, List.map_cons, List.map_cons, after_cons, after_cons, hengine,
        hresult, hresults, hmachine]
      exact ⟨rfl, rfl⟩

theorem fedAfter_boot (e : Engine) :
    Machine.FedAfter e.machine (boot e.options e.machine.random.rest e.log).machine :=
  rfl

/-- A run after a reset is a run of a new engine. -/
theorem performAll_reset (e : Engine) (run : List Action) :
    e.reset.performAll run =
      ((boot e.options e.machine.random.rest e.log).performAll run).map
        (offsetReply e.machine) := by
  rw [reset_eq_offset, performAll_offset e.fedAfter_boot]

theorem machine_after_reset (e : Engine) (run : List Action) :
    (e.reset.after run).machine =
      e.machine.offset ((boot e.options e.machine.random.rest e.log).after run).machine := by
  rw [reset_eq_offset, after_offset e.fedAfter_boot]
  rfl

/-- **A reset erases the history.** Two engines with the same options, whatever was done with them
before, answer the same calls after a reset in the same way when they are fed with the same random
bytes. Their machines differ in no more than the counters, which grow alike, and are fed alike from
there: the stack slots out of use and the bit of the latest cycle are the same, too. -/
theorem reset_erases_history (e e' : Engine) (run : List Action)
    (alike : e.options = e'.options)
    (fed : ∀ n, e.machine.random.upcoming n = e'.machine.random.upcoming n)
    (untoggled : ∀ action ∈ run, action ≠ .toggleVerbose) :
    (e.reset.performAll run).map (·.result) = (e'.reset.performAll run).map (·.result) ∧
    let m := (e.reset.after run).machine
    let m' := (e'.reset.after run).machine
    m' = { m with random := m'.random, cycles := m'.cycles, frames := m'.frames } ∧
    (∀ n, m.random.upcoming n = m'.random.upcoming n) ∧
    ∃ cycles frames,
      m.cycles = e.machine.cycles + cycles ∧ m'.cycles = e'.machine.cycles + cycles ∧
      m.frames = e.machine.frames + frames ∧ m'.frames = e'.machine.frames + frames := by
  have sameRest : e.machine.random.rest = e'.machine.random.rest := by
    rw [RandomBytes.rest, RandomBytes.rest, funext fed]
  obtain ⟨hresults, hmachine⟩ :=
    performAll_relog untoggled (boot e.options e.machine.random.rest e.log) e'.log
  constructor
  · rw [performAll_reset, performAll_reset, List.map_map, List.map_map, ← alike, ← sameRest]
    exact hresults.symm
  · have same : ((boot e.options e.machine.random.rest e'.log).after run).machine =
        ((boot e.options e.machine.random.rest e.log).after run).machine := hmachine
    rw [machine_after_reset, machine_after_reset, ← alike, ← sameRest, same]
    exact ⟨rfl, Machine.upcoming_offset fed _, _, _, rfl, rfl, rfl, rfl⟩

theorem supply_after (e : Engine) (run : List Action) :
    (e.after run).machine.random.supply = e.machine.random.supply := by
  refine after_induction (motive := fun d => d.machine.random.supply = e.machine.random.supply)
    ?_ rfl run
  intro d action h
  exact (Machine.supply_acted (d.perform_acted action)).trans h

/-- A strict engine that has drawn a random byte and then failed on an unknown word. -/
def veteran : Engine :=
  (boot { strict := true } (.cycle #[7]) ⟨.warning, false⟩).after
    [.load [0xC0, 0xFF], .step, .step]

/-- A new engine with the same options, which traces what it does. -/
def newcomer : Engine := boot { strict := true } (.cycle #[7]) ⟨.debug, true⟩

theorem reset_erases_history_veteran :
    let run := [.load [0xC1, 0xFF], .step, .step]
    (veteran.reset.performAll run).map (·.result) =
      (newcomer.reset.performAll run).map (·.result) ∧
    (veteran.reset.after run).machine.registers = (newcomer.reset.after run).machine.registers := by
  intro run
  have fed (n : Nat) :
      veteran.machine.random.upcoming n = newcomer.machine.random.upcoming n := by
    rw [RandomBytes.upcoming, RandomBytes.upcoming, veteran, supply_after]
    simp [newcomer, boot, Machine.boot, RandomBytes.cycle, Nat.mod_one]
  obtain ⟨results, same, -⟩ := reset_erases_history veteran newcomer run rfl fed (by simp [run])
  refine ⟨results, ?_⟩
  rw [same]

end Engine
end ChipEight
