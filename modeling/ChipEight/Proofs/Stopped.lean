import ChipEight.Proofs.ErrorLines
import ChipEight.Proofs.KeyReports
import ChipEight.Proofs.Redraw
import ChipEight.Proofs.Requests

/-!
# A stopped frontend

A fault of the program stops the frontend, and so does a program file that cannot be loaded. From
then on ticks still tell the machine which keys are down but run no cycle, and no other event
touches the machine, except that going to the next program file resets it. While the frontend runs,
each tick runs one cycle.

* `Handled.inert`, `inert_after`: what an event and a run can do to a stopped frontend.
* `stopped_frontend_inert`: the same for the machine and the image, and what a tick of a running
  frontend does.
-/

namespace ChipEight

theorem Machine.cycles_arm (m : Machine) (down : KeySet) : (m.arm down).cycles = m.cycles := by
  unfold arm
  rfl

namespace Frontend

/-- No event but going to the next program file does more to a stopped frontend's machine than
report keys to it. -/
theorem Handled.inert {f f' : Frontend} {event : Event} (h : Handled f event f')
    (stopped : f.running = false) (other : event ≠ .press .f2) :
    f'.running = false ∧ ∃ keys, f'.engine.machine = f.engine.machine.arm keys := by
  cases h with
  | stopped =>
      have still : f.feedKeys.running = false := by
        simp only [feedKeys, stopped]
      exact ⟨still, f.held ||| f.tapped, rfl⟩
  | completed h =>
      rw [h.1] at stopped
      cases stopped
  | failed running =>
      rw [running] at stopped
      cases stopped
  | advanced =>
      exact absurd rfl other
  | _ =>
      exact ⟨stopped, 0, (Machine.arm_zero _).symm⟩

theorem inert_after {f : Frontend} (stopped : f.running = false) {events : List Event}
    (others : .press .f2 ∉ events) :
    (f.after events).running = false ∧
      (∃ keys, (f.after events).engine.machine = f.engine.machine.arm keys) ∧
      Request.pictures (f.requestsAfter events) = [] := by
  induction events generalizing f with
  | nil =>
      exact ⟨stopped, ⟨0, (Machine.arm_zero _).symm⟩, rfl⟩
  | cons event rest ih =>
      rw [List.mem_cons, not_or] at others
      obtain ⟨still, keys, hmachine⟩ :=
        (f.handle_handled event).inert stopped (Ne.symm others.1)
      obtain ⟨last, ⟨keys', hmachine'⟩, silent⟩ := ih still others.2
      have incomplete : ¬ (event = .tick ∧ f.Completes) := by
        rintro ⟨-, running, -⟩
        rw [running] at stopped
        cases stopped
      -- The later reports join that of the first event, and no cycle ages the latches between them.
      refine ⟨last, ⟨keys ||| keys', ?_⟩, ?_⟩
      · rw [after, hmachine', hmachine, Machine.arm_arm]
      · rw [requestsAfter, Request.pictures_append, pictures_handle incomplete, silent]
        rfl

theorem cycles_tick {f : Frontend} (running : f.running = true) :
    f.tick.state.engine.machine.cycles = f.engine.machine.cycles + 1 := by
  obtain ⟨calls, member, hengine⟩ := f.engine_tick
  rw [if_pos running] at member
  have steps : (f.feedKeys.engine.starts calls).length = 1 := by
    rcases List.mem_pair.1 member with rfl | rfl <;> rfl
  have fed : f.feedKeys.engine.machine.cycles = f.engine.machine.cycles := Machine.cycles_arm _ _
  rw [hengine, (Engine.counters_after _ _).2, steps, fed]

/-- A fault of the program stops the frontend, closes the window, and is reported. -/
theorem tick_of_fault {f : Frontend} (running : f.running = true) {fault : Fault}
    (hfault : f.feedKeys.engine.step.result = .error fault) (program : fault.ofProgram = true) :
    f.tick.state.running = false ∧ f.tick.requests = [.closeWindow] ∧
      LogLine.errors f.tick.lines = [⟨.error, "Emulation error: " ++ fault.message⟩] := by
  rw [tick, if_pos running]
  simp only [cycle, hfault, program, if_true, LogLine.errors_append, LogLine.errors_error,
    Engine.errors_step_of_error hfault, List.nil_append, and_self]

/-- **A stopped frontend is inert.** Whatever happens to it, short of going to the next program
file, it stays stopped, its machine is the same up to keys that were armed, and its image is not
replaced. A tick of a running frontend runs one cycle; when that ends with a fault of the program,
the frontend stops, closes the window once and logs one error. -/
theorem stopped_frontend_inert (f : Frontend) :
    (f.running = false → ∀ events, .press .f2 ∉ events →
      (f.after events).running = false ∧
      (∃ keys, (f.after events).engine.machine = f.engine.machine.arm keys) ∧
      Request.pictures (f.requestsAfter events) = []) ∧
    (f.running = true →
      f.tick.state.engine.machine.cycles = f.engine.machine.cycles + 1 ∧
      (∃ calls ∈ [[.step], [.step, .takeRedraw]],
        f.tick.state.engine = f.feedKeys.engine.after calls) ∧
      ∀ fault, f.feedKeys.engine.step.result = .error fault → fault.ofProgram = true →
        f.tick.state.running = false ∧ f.tick.requests = [.closeWindow] ∧
        LogLine.errors f.tick.lines = [⟨.error, "Emulation error: " ++ fault.message⟩]) := by
  refine ⟨fun stopped events others => inert_after stopped others, fun running => ?_⟩
  refine ⟨cycles_tick running, ?_, fun fault hfault program => ?_⟩
  · have calls := f.engine_tick
    rw [if_pos running] at calls
    exact calls
  · exact tick_of_fault running hfault program

/-- The frontend as it starts to play a program that returns without a call. -/
def returning : Frontend :=
  (unopened { roms := ["RET"] } (fun _ => .ok [0x00, 0xEE]) (.cycle #[]) 10).openWindow.state

/-- The first tick stops the frontend; two more and a key press take no second step. -/
theorem stopped_frontend_inert_returning :
    returning.tick.requests = [.closeWindow] ∧
    LogLine.errors returning.tick.lines =
      [⟨.error, "Emulation error: Stack underflow on RET at 0x200"⟩] ∧
    (returning.tick.state.after [.tick, .press .q, .tick]).running = false ∧
    (returning.tick.state.after [.tick, .press .q, .tick]).engine.machine.cycles = 1 := by
  have running : returning.running = true := by decide +kernel
  have stands : returning.feedKeys.engine.machine.instruction = .ret := by decide +kernel
  have place : returning.feedKeys.engine.machine.pc = 0x200 := by decide +kernel
  have empty : returning.feedKeys.engine.machine.sp = 0 := by decide +kernel
  have hfault : returning.feedKeys.engine.step.result = .error (.stackUnderflow 0x200) := by
    rw [Engine.step_result, Machine.step_eq_error_iff, stands, ← place]
    exact .underflow empty
  obtain ⟨counted, -, faults⟩ := (stopped_frontend_inert returning).2 running
  obtain ⟨stopped, requests, errors⟩ := faults _ hfault rfl
  obtain ⟨still, ⟨keys, machine⟩, -⟩ :=
    (stopped_frontend_inert returning.tick.state).1 stopped [.tick, .press .q, .tick] (by decide)
  refine ⟨requests, errors.trans (by decide +kernel), still, ?_⟩
  rw [machine, Machine.cycles_arm, counted]
  decide +kernel

end Frontend
end ChipEight
