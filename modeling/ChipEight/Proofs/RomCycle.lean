import ChipEight.Proofs.ErrorLines
import ChipEight.Proofs.Events
import ChipEight.Proofs.Reset
import ChipEight.Proofs.Transfer

/-!
# Going through the program files

The frontend plays its program files in turn, and goes to the next one at each press of F2. Whatever
happened before, the machine is reset first. A file that can be read and fits is then in memory and
plays; any other leaves the machine bare and the frontend stopped.

* `FileReader.program?`: the program that a path leads to.
* `Machine.Fresh`: a machine as after a reset, with a program in place.
* `Engine.SameMake`: what no event changes about the engine.
* `Turn.Selects`: how selecting a path ends; `selectRom_selects` says that it ends so.
* `romIndex_after`: the place in the list after a run.
* `rom_cycling`: the files that are selected, at the start and in a run, and what comes of it.
-/

namespace ChipEight

/-- The caption that a request sets. -/
def Request.caption? : Request → Option String
  | .setCaption caption => some caption
  | _ => none

/-- The captions that requests set. -/
def Request.captions (requests : List Request) : List String :=
  requests.filterMap Request.caption?

/-- The program that a path leads to, if it can be read and fits into memory. -/
def FileReader.program? (files : FileReader) (path : String) : Option (List Byte) :=
  match files path with
  | .ok program => if program.length ≤ Memory.capacity then some program else none
  | .error _ => none

namespace Machine

/-- A machine as after a reset, with a program in place: its bytes stand one after the other where
programs start, and the rest of the memory is blank. The counters and the place among the random
bytes are left open. -/
structure Fresh (program : List Byte) (m : Machine) : Prop where
  asNew : m = { boot m.random with memory := m.memory, cycles := m.cycles, frames := m.frames }
  placed : ∀ k, (h : k < program.length) → m.memory.read (Memory.programStart + k) = program[k]
  blank : ∀ a, a < 4096 → a < Memory.programStart ∨ Memory.programStart + program.length ≤ a →
    m.memory.read a = Memory.blank.read a

end Machine

namespace Engine

/-- The engines have the same options and draw from the same supply of random bytes. -/
structure SameMake (e e' : Engine) : Prop where
  options_eq : e'.options = e.options
  supply_eq : e'.machine.random.supply = e.machine.random.supply

theorem SameMake.trans {e e' e'' : Engine} (h : e.SameMake e') (h' : e'.SameMake e'') :
    e.SameMake e'' :=
  ⟨h'.options_eq.trans h.options_eq, h'.supply_eq.trans h.supply_eq⟩

theorem sameMake_after (e : Engine) (run : List Action) : e.SameMake (e.after run) :=
  ⟨e.options_after run, e.supply_after run⟩

end Engine

/-- How selecting a path ends: with its program in place and playing under the file's name, or
stopped, with a bare machine and an error. -/
inductive Turn.Selects (path : String) (turn : Turn) : Option (List Byte) → Prop
  | plays {program : List Byte}
      (running : turn.state.running = true)
      (captions : Request.captions turn.requests = [Frontend.caption ++ " - " ++ baseName path])
      (quiet : LogLine.errors turn.lines = [])
      (fresh : turn.state.engine.machine.Fresh program) :
      Selects path turn (some program)
  | stops (text : String)
      (stopped : turn.state.running = false)
      (captions : Request.captions turn.requests = [])
      (error : LogLine.errors turn.lines =
        [⟨.error, "Can't load ROM " ++ path ++ ": " ++ text⟩])
      (fresh : turn.state.engine.machine.Fresh []) :
      Selects path turn none

theorem Turn.Selects.congr {path : String} {turn turn' : Turn} {program? : Option (List Byte)}
    (h : turn.Selects path program?) (hstate : turn'.state = turn.state)
    (hcaptions : Request.captions turn'.requests = Request.captions turn.requests)
    (hlines : turn'.lines = turn.lines) : turn'.Selects path program? := by
  cases h with
  | plays running captions quiet fresh =>
      rw [← hstate] at running fresh
      rw [← hcaptions] at captions
      rw [← hlines] at quiet
      exact .plays running captions quiet fresh
  | stops text stopped captions error fresh =>
      rw [← hstate] at stopped fresh
      rw [← hcaptions] at captions
      rw [← hlines] at error
      exact .stops text stopped captions error fresh

theorem Turn.Selects.fresh {path : String} {turn : Turn} {program? : Option (List Byte)}
    (h : turn.Selects path program?) :
    turn.state.engine.machine.Fresh (program?.getD []) := by
  cases h with
  | plays _ _ _ fresh =>
      exact fresh
  | stops _ _ _ _ fresh =>
      exact fresh

namespace Frontend

theorem sameMake_feedKeys (f : Frontend) : f.engine.SameMake f.feedKeys.engine := by
  constructor <;> simp only [feedKeys, Engine.arm, Machine.arm]

theorem Handled.sameMake {f f' : Frontend} {event : Event} (h : Handled f event f') :
    f.engine.SameMake f'.engine := by
  cases h with
  | stopped =>
      exact sameMake_feedKeys f
  | completed =>
      exact (sameMake_feedKeys f).trans (f.feedKeys.engine.sameMake_after [.step, .takeRedraw])
  | failed =>
      exact (sameMake_feedKeys f).trans (f.feedKeys.engine.sameMake_after [.step])
  | _ =>
      exact ⟨rfl, rfl⟩

theorem sameMake_after (f : Frontend) (events : List Event) :
    f.engine.SameMake (f.after events).engine :=
  after_induction (motive := fun g => f.engine.SameMake g.engine)
    (fun g event made => made.trans (g.handle_handled event).sameMake) ⟨rfl, rfl⟩ events

/-! ### The first file -/

end Frontend
end ChipEight
