import ChipEight.Engine.Action

/-!
# Runs of an engine

A run carries out actions one after the other, the failing ones included.

* `Engine.after`: the engine that a run leaves behind; `mem_performAll` says that the replies of a
  run are those of single actions, each carried out after the ones before it.
* `Machine.Acted`: all that one action can make of the machine.
* `after_induction`: what holds at first and is kept by each action holds after every run.
* `Engine.starts`: the engines that the steps of a run start from, to count steps by what they do.
-/

namespace ChipEight

namespace Engine

/-- The engine after a run. -/
def after (e : Engine) : List Action → Engine
  | [] => e
  | action :: rest => (e.perform action).engine.after rest

@[simp] theorem after_nil (e : Engine) : e.after [] = e :=
  rfl

@[simp] theorem after_cons
    (e : Engine) (action : Action) (rest : List Action) :
    e.after (action :: rest) = (e.perform action).engine.after rest :=
  rfl

theorem after_append
    (e : Engine) (actions more : List Action) :
    e.after (actions ++ more) = (e.after actions).after more := by
  induction actions generalizing e with
  | nil =>
      rfl
  | cons action rest ih =>
      exact ih _

theorem after_concat
    (e : Engine) (actions : List Action) (action : Action) :
    e.after (actions ++ [action]) = ((e.after actions).perform action).engine := by
  rw [after_append]
  rfl

/-- Every reply of a run is that of one action, carried out after the actions before it. -/
theorem mem_performAll
    (e : Engine) (actions : List Action) (reply : Reply (Except Failure Answer)) :
    reply ∈ e.performAll actions ↔
      ∃ before action later,
        actions = before ++ action :: later ∧
        reply = (e.after before).perform action := by
  induction actions generalizing e with
  | nil =>
      simp [performAll]
  | cons first rest ih =>
      rw [performAll, List.mem_cons, ih]
      constructor
      · rintro (rfl | ⟨before, action, later, rfl, rfl⟩)
        · exact ⟨[], first, rest, rfl, rfl⟩
        · exact ⟨first :: before, action, later, rfl, rfl⟩
      · rintro ⟨before, action, later, hsplit, rfl⟩
        cases before with
        | nil =>
            obtain ⟨rfl, rfl⟩ := List.cons.inj hsplit
            exact Or.inl rfl
        | cons head before =>
            obtain ⟨rfl, rfl⟩ := List.cons.inj hsplit
            exact Or.inr ⟨before, action, later, rfl, rfl⟩

/-- The engine that an action starts a step from, if it is a step. -/
def startOf (e : Engine) : Action → List Engine
  | .step => [e]
  | _ => []

/-- The engines that the steps of a run start from, in their order. -/
def starts (e : Engine) : List Action → List Engine
  | [] => []
  | action :: rest => e.startOf action ++ (e.perform action).engine.starts rest

@[simp] theorem starts_nil (e : Engine) : e.starts [] = [] :=
  rfl

@[simp] theorem starts_step (e : Engine) (rest : List Action) :
    e.starts (.step :: rest) = e :: e.step.engine.starts rest :=
  rfl

theorem starts_cons_of_ne {e : Engine} {action : Action} (noStep : action ≠ .step)
    (rest : List Action) :
    e.starts (action :: rest) = (e.perform action).engine.starts rest := by
  cases action with
  | step =>
      exact absurd rfl noStep
  | _ =>
      rfl

theorem starts_append (e : Engine) (run later : List Action) :
    e.starts (run ++ later) = e.starts run ++ (e.after run).starts later := by
  induction run generalizing e with
  | nil =>
      rfl
  | cons action rest ih =>
      rw [List.cons_append, starts, starts, ih, List.append_assoc, after_cons]

theorem after_induction
    {motive : Engine → Prop}
    (keeps : ∀ e action, motive e → motive (e.perform action).engine)
    {e : Engine} (first : motive e) (actions : List Action) :
    motive (e.after actions) := by
  induction actions generalizing e with
  | nil =>
      exact first
  | cons action rest ih =>
      exact ih (keeps e action first)

end Engine

/-- What an action makes of the machine. -/
inductive Machine.Acted (o : Options) (m : Machine) : Action → Machine → Prop
  | reset : Acted o m .reset m.reset
  | step : Acted o m .step (m.step o).1
  | takeRedraw : Acted o m .takeRedraw m.noteRedraw
  | load {program : List Int} {bytes : List Byte}
      (known : bytesOfInts program = .ok bytes)
      (fits : bytes.length ≤ Memory.capacity) :
      Acted o m (.load program)
        { m with memory := m.memory.writeAll Memory.programStart bytes }
  | arm {report : KeyReport} {down : KeySet}
      (flat : report.keys? = .ok down) :
      Acted o m (.setKeys report) (m.arm down)
  /-- A refused or an observing action. -/
  | stay {action : Action}
      (noReset : action ≠ .reset) (noStep : action ≠ .step) :
      Acted o m action m

namespace Engine

theorem step_result (e : Engine) : e.step.result = (e.machine.step e.options).2 :=
  rfl

theorem step_engine (e : Engine) :
    e.step.engine = { e with machine := (e.machine.step e.options).1 } :=
  rfl

@[simp] theorem perform_step_engine (e : Engine) : (e.perform .step).engine = e.step.engine :=
  rfl

theorem load_of_fits (e : Engine) {program : List Byte} (fits : program.length ≤ Memory.capacity) :
    e.load program =
      { engine :=
          { e with machine :=
            { e.machine with
              memory := e.machine.memory.writeAll Memory.programStart program } }
        result := .ok ()
        lines := e.log.trace ("Loaded program: " ++ toString program.length ++ " bytes") } := by
  rw [load, if_neg (Nat.not_lt_of_le fits)]

theorem load_of_large (e : Engine) {program : List Byte}
    (large : Memory.capacity < program.length) :
    e.load program = ⟨e, .error (.tooLarge program.length), []⟩ := by
  rw [load, if_pos large]

theorem perform_load_toNat
    (e : Engine) {program : List Byte} (fits : program.length ≤ Memory.capacity) :
    (e.perform (.load (program.map fun b => (b.toNat : Int)))).engine =
      { e with machine :=
          { e.machine with
            memory := e.machine.memory.writeAll Memory.programStart program } } := by
  show (e.loadInts _).engine = _
  rw [loadInts, bytesOfInts_toNat]
  show (e.load program).engine = _
  rw [load_of_fits e fits]

theorem perform_load_result
    (e : Engine) {program : List Byte} (fits : program.length ≤ Memory.capacity) :
    (e.perform (.load (program.map fun b => (b.toNat : Int)))).result = .ok .done := by
  simp only [perform, loadInts, bytesOfInts_toNat, load_of_fits e fits, perform.answered]

/-- A load touches nothing but the memory. -/
theorem load_engine (e : Engine) (program : List Byte) :
    ∃ memory, (e.load program).engine = { e with machine := { e.machine with memory } } := by
  rcases Nat.lt_or_ge Memory.capacity program.length with large | fits
  · rw [load_of_large e large]
    exact ⟨e.machine.memory, rfl⟩
  · rw [load_of_fits e fits]
    exact ⟨_, rfl⟩

theorem loadInts_engine (e : Engine) (program : List Int) :
    ∃ memory, (e.loadInts program).engine = { e with machine := { e.machine with memory } } := by
  unfold loadInts
  split
  next bytes known =>
    exact e.load_engine bytes
  next =>
    exact ⟨e.machine.memory, rfl⟩

/-- A report of keys touches nothing but the keypad. -/
theorem setKeys_engine (e : Engine) (report : KeyReport) :
    ∃ keypad, (e.setKeys report).engine = { e with machine := { e.machine with keypad } } := by
  unfold setKeys
  split
  · exact ⟨_, rfl⟩
  · exact ⟨e.machine.keypad, rfl⟩

theorem options_perform (e : Engine) (action : Action) :
    (e.perform action).engine.options = e.options := by
  cases action with
  | load program =>
      obtain ⟨memory, hload⟩ := e.loadInts_engine program
      simp only [perform, hload]
  | setKeys report =>
      obtain ⟨keypad, hkeys⟩ := e.setKeys_engine report
      simp only [perform, hkeys]
  | _ =>
      rfl

/-- No action changes the options. -/
theorem options_after (e : Engine) (actions : List Action) :
    (e.after actions).options = e.options := by
  refine after_induction (motive := fun d => d.options = e.options) ?_ rfl actions
  intro d action same
  rw [d.options_perform action, same]

theorem loadInts_acted (e : Engine) (program : List Int) :
    e.machine.Acted e.options (.load program) (e.loadInts program).engine.machine := by
  unfold loadInts
  split
  next bytes known =>
    unfold load
    split
    · exact .stay nofun nofun
    · next fits => exact .load known (Nat.le_of_not_lt fits)
  next =>
    exact .stay nofun nofun

theorem setKeys_acted (e : Engine) (report : KeyReport) :
    e.machine.Acted e.options (.setKeys report) (e.setKeys report).engine.machine := by
  unfold setKeys
  split
  next down flat =>
    exact .arm flat
  next =>
    exact .stay nofun nofun

theorem perform_acted (e : Engine) (action : Action) :
    e.machine.Acted e.options action (e.perform action).engine.machine := by
  cases action with
  | reset =>
      exact .reset
  | load program =>
      exact e.loadInts_acted program
  | setKeys report =>
      exact e.setKeys_acted report
  | step =>
      exact .step
  | takeRedraw =>
      exact .takeRedraw
  | framebuffer =>
      exact .stay nofun nofun
  | soundLevel =>
      exact .stay nofun nofun
  | setVerbose on =>
      exact .stay nofun nofun
  | toggleVerbose =>
      exact .stay nofun nofun

end Engine
end ChipEight
