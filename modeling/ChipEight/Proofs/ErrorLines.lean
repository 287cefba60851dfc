import ChipEight.Proofs.Effect
import ChipEight.Engine

/-!
# Errors among the lines

An error always comes through, whatever the log's threshold, and traces are no errors. So the errors
that a call logs do not depend on the state of the log.

* `Log.error_eq`: writing an error gives its line.
* `LogLine.errors`: the errors among lines; `Engine.errors_step` says which ones a step logs.
-/

namespace ChipEight

/-- The errors among lines, in their order. -/
def LogLine.errors (lines : List LogLine) : List LogLine :=
  lines.filter fun line => line.level = .error

namespace Log

theorem error_eq (log : Log) (text : String) : log.error text = [⟨.error, text⟩] := by
  have admitted : log.admits .error = true := by
    cases log with
    | mk threshold tracing =>
        cases threshold <;> rfl
  rw [error, write, if_pos admitted]

end Log

namespace LogLine

theorem errors_append (lines more : List LogLine) :
    errors (lines ++ more) = errors lines ++ errors more :=
  List.filter_append ..

@[simp] theorem errors_trace (log : Log) (text : String) : errors (log.trace text) = [] := by
  unfold Log.trace Log.write
  split
  · split <;> rfl
  · rfl

@[simp] theorem errors_error (log : Log) (text : String) :
    errors (log.error text) = [⟨.error, text⟩] := by
  rw [Log.error_eq]
  rfl

end LogLine

namespace Engine

/-- A step logs no error but the report of a word that it stalls on. -/
theorem errors_step (e : Engine) :
    LogLine.errors e.step.lines =
      match e.machine.stall? e.options with
      | some fault => [⟨.error, fault.message⟩]
      | none => [] := by
  unfold step
  rw [LogLine.errors_append, LogLine.errors_trace, List.nil_append]
  cases e.machine.stall? e.options with
  | some fault =>
      exact LogLine.errors_error _ _
  | none =>
      rfl

/-- What fails does not stall. -/
theorem errors_step_of_error {e : Engine} {fault : Fault} (h : e.step.result = .error fault) :
    LogLine.errors e.step.lines = [] := by
  have fails : e.machine.Fails e.options e.machine.instruction fault :=
    Machine.step_eq_error_iff.1 h
  rw [errors_step, Machine.stall?]
  generalize e.machine.instruction = i at fails
  cases fails with
  | unknown w strict =>
      simp [strict]
  | _ =>
      rfl

end Engine
end ChipEight
