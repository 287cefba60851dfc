import ChipEight.Instruction.Text
import ChipEight.Machine.Execute

/-!
# One cycle

A cycle is counted, fetches, decodes and executes one instruction and then ages the timers and the
key latches. One that fails ends where its instruction failed.
-/

namespace ChipEight
namespace Machine

/-- Let the timers and the key latches run down by one. -/
def age (m : Machine) : Machine :=
  { m with delay := countDown m.delay, sound := countDown m.sound, keypad := m.keypad.age }

/-- Count a cycle, which has written nothing to the screen yet. -/
def count (m : Machine) : Machine := { m with cycles := m.cycles + 1, dirty := false }

/-- Run one cycle. The result is whether it wrote to the screen, or the fault. -/
def step (o : Options) (m : Machine) : Machine × Except Fault Bool :=
  match m.count.execute o m.instruction with
  | .ok () done => (done.age, .ok done.age.dirty)
  | .error fault reached => (reached, .error fault)

/-- The line that describes the coming cycle: masked address, word and listing. -/
def traceLine (m : Machine) : String :=
  Hex.padded 3 m.codeAddress ++ ": " ++ Hex.padded 4 m.word.toNat ++ "  " ++ m.instruction.text

/-- The fault that a lenient machine reports, and stalls on, where a strict one would fail. -/
def stall? (o : Options) (m : Machine) : Option Fault :=
  match m.instruction with
  | .unknown w => if o.strict then none else some (.unknownOpcode w m.pc)
  | _ => none

end Machine
end ChipEight
