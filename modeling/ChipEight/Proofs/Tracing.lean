import ChipEight.Proofs.Hiding
import ChipEight.Proofs.Listing

/-!
# Tracing shows and changes nothing else

Whether tracing is on matters to no answer, to no machine and to no error that is logged. And while
it is on, the log lets the traces through: a step and a successful load leave one line each, and
switching tracing over leaves one that tells the new state.

* `Engine.hides_log`: the log matters only to the actions that switch tracing.
* `Engine.traces_perform`: the trace lines of an action.
* `Log.announce_toggled`: switching tracing over is always announced.
* `Engine.tracing_transparent_complete`: both sides of it, at every point of a run.
-/

namespace ChipEight

theorem length_of_bytesOfInts {values : List Int} {bytes : List Byte}
    (h : bytesOfInts values = .ok bytes) : bytes.length = values.length := by
  unfold bytesOfInts at h
  induction values generalizing bytes with
  | nil =>
      cases h
      rfl
  | cons value rest ih =>
      rw [List.mapM_cons] at h
      cases first : byteOfInt value with
      | error cause =>
          rw [first] at h
          cases h
      | ok b =>
          cases others : rest.mapM byteOfInt with
          | error cause =>
              rw [first, others] at h
              cases h
          | ok more =>
              rw [first, others] at h
              cases h
              rw [List.length_cons, List.length_cons, ih others]

/-- Does the action switch tracing? -/
def Action.switchesTracing : Action → Bool
  | .setVerbose _ => true
  | .toggleVerbose => true
  | _ => false

/-- The traces among lines, in their order. -/
def LogLine.traces (lines : List LogLine) : List LogLine :=
  lines.filter fun line => line.level = .debug

namespace Log

theorem admits_of_admits_debug {log : Log} (h : log.admits .debug = true) (level : Level) :
    log.admits level = true := by
  have lowest : log.threshold.rank ≤ 0 := of_decide_eq_true h
  exact decide_eq_true (Nat.le_trans lowest (Nat.zero_le _))

/-- Tracing lets its lines through from when it is switched on, and the threshold is not raised
when it is switched off. -/
theorem admits_toggled {log : Log} (sound : log.Sound) :
    (log.setVerbose (!log.tracing)).admits .debug = true := by
  cases tracing : log.tracing with
  | false =>
      exact log.sound_setVerbose true rfl
  | true =>
      exact sound tracing

theorem announce_toggled {log : Log} (sound : log.Sound) :
    (log.setVerbose (!log.tracing)).announce =
      [⟨.info, "logsOn: " ++ if log.tracing then "False" else "True"⟩] := by
  rw [announce, write, if_pos (admits_of_admits_debug (admits_toggled sound) _)]
  cases tracing : log.tracing <;> rfl

end Log

namespace LogLine

theorem traces_append (lines more : List LogLine) :
    traces (lines ++ more) = traces lines ++ traces more :=
  List.filter_append ..

theorem traces_trace {log : Log} (sound : log.Sound) (text : String) :
    traces (log.trace text) = if log.tracing then [⟨.debug, text⟩] else [] := by
  rw [Log.trace]
  split
  next tracing =>
    rw [Log.write, if_pos (sound tracing)]
    rfl
  next =>
    rfl

theorem traces_error (log : Log) (text : String) : traces (log.error text) = [] := by
  rw [Log.error_eq]
  rfl

theorem traces_announce (log : Log) : traces log.announce = [] := by
  rw [Log.announce, Log.write]
  split <;> rfl

end LogLine

namespace Engine

/-- The engine with a log that only takes errors. -/
def silenced (e : Engine) : Engine := { e with log := ⟨.error, false⟩ }

/-- A reply with the errors that it logged, and without the state of the log. -/
def untraced {α : Type} (reply : Reply α) : Reply α :=
  { reply with engine := reply.engine.silenced, lines := LogLine.errors reply.lines }

variable {e : Engine}

theorem load_silenced (program : List Byte) :
    e.silenced.load program = untraced (e.load program) := by
  by_cases large : Memory.capacity < program.length
  · rw [load_of_large _ large, load_of_large _ large]
    rfl
  · have fits := Nat.le_of_not_lt large
    rw [load_of_fits _ fits, load_of_fits _ fits, untraced, LogLine.errors_trace]
    rfl

theorem loadInts_silenced (program : List Int) :
    e.silenced.loadInts program = untraced (e.loadInts program) := by
  unfold loadInts
  cases bytesOfInts program with
  | error cause =>
      rfl
  | ok bytes =>
      exact load_silenced bytes

theorem setKeys_silenced (report : KeyReport) :
    e.silenced.setKeys report = untraced (e.setKeys report) := by
  unfold setKeys
  cases report.keys? <;> rfl

theorem step_silenced : e.silenced.step = untraced e.step := by
  rw [untraced, errors_step, step, step, silenced]
  cases e.machine.stall? e.options with
  | some fault =>
      simp only [Log.error_eq]
      rfl
  | none =>
      rfl

theorem perform_silenced {action : Action} (h : action.switchesTracing = false) :
    e.silenced.perform action = untraced (e.perform action) := by
  cases action with
  | setVerbose on =>
      cases h
  | toggleVerbose =>
      cases h
  | load program =>
      simp only [perform, loadInts_silenced]
      rfl
  | setKeys report =>
      simp only [perform, setKeys_silenced]
      rfl
  | step =>
      simp only [perform, step_silenced]
      rfl
  | _ =>
      rfl

theorem silenced_perform_switch {action : Action} (h : action.switchesTracing = true) :
    (e.perform action).engine.silenced = e.silenced := by
  cases action with
  | setVerbose on =>
      rfl
  | toggleVerbose =>
      rfl
  | _ =>
      cases h

/-- The state of the log matters to nothing but the switching of it. -/
theorem hides_log :
    Hides (fun action => !action.switchesTracing) silenced untraced (fun _ => True) where
  engine_see _ := rfl
  kept_step := rfl
  blind_hide := Iff.rfl
  perform_kept h _ := perform_silenced (by simpa using h)
  perform_dropped h := silenced_perform_switch (by simpa using h)

/-- What there is to trace about an action: the cycle that a step begins, whether it fails or not,
and the length of a program that was loaded. -/
def toTrace (e : Engine) : Action → List String
  | .step => [e.machine.traceLine]
  | .load program =>
    match (e.loadInts program).result with
    | .ok () => ["Loaded program: " ++ toString program.length ++ " bytes"]
    | .error _ => []
  | _ => []

theorem traces_step (sound : e.log.Sound) :
    LogLine.traces e.step.lines =
      if e.log.tracing then [⟨.debug, e.machine.traceLine⟩] else [] := by
  rw [step, LogLine.traces_append, LogLine.traces_trace sound]
  cases e.machine.stall? e.options with
  | some fault =>
      rw [LogLine.traces_error, List.append_nil]
  | none =>
      exact List.append_nil _

theorem traces_load (sound : e.log.Sound) (program : List Int) :
    LogLine.traces (e.loadInts program).lines =
      if e.log.tracing then (e.toTrace (.load program)).map (⟨.debug, ·⟩) else [] := by
  rw [toTrace, loadInts]
  cases known : bytesOfInts program with
  | error cause =>
      exact (ite_self []).symm
  | ok bytes =>
      show LogLine.traces (e.load bytes).lines = _
      rcases Nat.lt_or_ge Memory.capacity bytes.length with large | fits
      · simp only [load_of_large e large]
        exact (ite_self []).symm
      · simp only [load_of_fits e fits, length_of_bytesOfInts known]
        exact LogLine.traces_trace sound _

/-- An action traces what there is to trace about it while tracing is on, and nothing while it is
off. -/
theorem traces_perform (sound : e.log.Sound) (action : Action) :
    LogLine.traces (e.perform action).lines =
      if e.log.tracing then (e.toTrace action).map (⟨.debug, ·⟩) else [] := by
  have silent : (if e.log.tracing then ([] : List String).map (LogLine.mk .debug ·) else []) = [] :=
    ite_self []
  cases action with
  | load program =>
      exact traces_load sound program
  | step =>
      exact traces_step sound
  | setKeys report =>
      refine Eq.trans ?_ silent.symm
      show LogLine.traces (e.setKeys report).lines = []
      unfold setKeys
      split <;> rfl
  | toggleVerbose =>
      exact (LogLine.traces_announce _).trans silent.symm
  | _ =>
      exact silent.symm

/-- **Tracing is transparent and complete.** An engine starts with tracing off, and a run switches
it at any places. To all its other actions the run replies like the run without them, with the same
results, machines and errors, and it leaves the same machine. Wherever a run has come, the log lets
traces through if tracing is on; then a step, failing or not, and a load that succeeds leave one
trace line each, and while tracing is off there is none. Switching tracing over always leaves one
line that tells the new state. -/
theorem tracing_transparent_complete (e : Engine) (off : e.log.tracing = false)
    (run : List Action) :
    let others := run.filter (!·.switchesTracing)
    let reached := e.after run
    ((e.repliesTo (!·.switchesTracing) run).map untraced = (e.performAll others).map untraced ∧
      reached.machine = (e.after others).machine) ∧
    (reached.log.tracing = true → reached.log.admits .debug = true) ∧
    (∀ action, LogLine.traces (reached.perform action).lines =
      if reached.log.tracing then (reached.toTrace action).map (⟨.debug, ·⟩) else []) ∧
    reached.perform .toggleVerbose =
      { engine := reached.setVerbose (!reached.log.tracing)
        result := .ok (.flag (!reached.log.tracing))
        lines := [⟨.info, "logsOn: " ++ if reached.log.tracing then "False" else "True"⟩] } := by
  intro others reached
  have sound : reached.log.Sound := by
    refine sound_after (fun tracing => ?_) run
    rw [off] at tracing
    cases tracing
  have all : ∀ action ∈ others, (!action.switchesTracing) = true :=
    fun action h => (List.mem_filter.1 h).2
  have plain : others.filter (!·.switchesTracing) = others := List.filter_eq_self.2 all
  refine ⟨⟨?_, ?_⟩, sound, traces_perform sound, ?_⟩
  · rw [← repliesTo_of_forall all, hides_log.repliesTo_eq fun _ _ => trivial,
      hides_log.repliesTo_eq fun _ _ => trivial, plain]
  · have same : reached.silenced = (e.after others).silenced := by
      rw [hides_log.hide_after fun _ _ => trivial, hides_log.hide_after fun _ _ => trivial, plain]
    exact (congrArg Engine.machine same :)
  · rw [← Log.announce_toggled sound]
    rfl

/-- An engine with two instructions and nothing behind them: a load and a return. -/
def returner : Engine :=
  (boot {} (.cycle #[]) ⟨.warning, false⟩).after [.load [0x60, 0x05, 0x00, 0xEE]]

/-- Tracing is switched on before the second of two steps, which fails, and off and on again after
it. -/
theorem tracing_transparent_complete_returner :
    let run := [.step, .toggleVerbose, .step, .setVerbose false, .toggleVerbose]
    (returner.repliesTo (!·.switchesTracing) run).map untraced =
      (returner.performAll [.step, .step]).map untraced ∧
    ((returner.after run).perform .step).result.isOk = false ∧
    LogLine.traces ((returner.after run).perform .step).lines = [⟨.debug, "202: 00EE  RET"⟩] ∧
    ((returner.after run).perform .toggleVerbose).lines = [⟨.info, "logsOn: False"⟩] := by
  intro run
  obtain ⟨transparent, -, traces, toggled⟩ := tracing_transparent_complete returner rfl run
  refine ⟨transparent.1, ?_, (traces .step).trans ?_, ?_⟩
  · decide +kernel
  · decide +kernel
  · rw [toggled]
    decide +kernel

end Engine
end ChipEight
