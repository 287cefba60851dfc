import ChipEight.Memory
import ChipEight.Text.Hex
import ChipEight.Text.Tuple

/-!
# Faults and refusals

Why a step fails, why input is refused, and the text that says so.
-/

namespace ChipEight

/-- Why a step fails. The program counter is the one of the failing instruction. -/
inductive Fault where
  | unknownOpcode (word : Word) (pc : Nat)
  | stackOverflow (pc : Nat)
  | stackUnderflow (pc : Nat)
  /-- A call from an address that a stack entry of sixteen bits cannot hold. -/
  | unstorableReturn (pc : Nat)
  deriving DecidableEq, Repr

namespace Fault

/-- The text of a fault. -/
def message : Fault → String
  | .unknownOpcode word pc =>
    "Unknown opcode: " ++ Hex.padded 4 word.toNat ++ " at 0x" ++ Hex.padded 3 pc
  | .stackOverflow pc => "Stack overflow on CALL at 0x" ++ Hex.padded 3 pc
  | .stackUnderflow pc => "Stack underflow on RET at 0x" ++ Hex.padded 3 pc
  | .unstorableReturn pc => "Return address out of 16 bits: " ++ toString pc

/-- Is the fault the program's, so that whoever drives the machine reports it and stops? A return
address that cannot be stored is not: it is a failure of the machine itself. -/
def ofProgram : Fault → Bool
  | .unstorableReturn _ => false
  | _ => true

end Fault

/-- Why input is refused. -/
inductive Refusal where
  /-- A program with a member that is no byte. -/
  | notBytes (cause : RangeError)
  /-- A program of this many bytes. -/
  | tooLarge (size : Nat)
  /-- A report of keys of this shape. -/
  | keyShape (shape : List Nat)
  /-- A report of keys that is nested too deep to have a shape. -/
  | keyDepth
  deriving DecidableEq, Repr

namespace Refusal

/-- How deep a report of keys may be nested. -/
def maxDepth : Nat := 64

/-- The text of a refusal. -/
def message : Refusal → String
  | .notBytes cause => cause.message
  | .tooLarge size =>
    "Program is " ++ toString size ++ " bytes, only " ++ toString Memory.capacity ++
      " fit in memory"
  | .keyShape shape => "Expected 16 key states, got shape " ++ tupleText shape
  | .keyDepth =>
    "setting an array element with a sequence. The requested array would exceed the maximum " ++
      "number of dimension of " ++ toString maxDepth ++ "."

end Refusal
end ChipEight
