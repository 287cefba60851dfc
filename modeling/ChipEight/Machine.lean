import ChipEight.Instruction.Decode
import ChipEight.Keypad
import ChipEight.Memory
import ChipEight.Registers
import ChipEight.Screen

/-!
# The machine

The state of the interpreter. It never looks at a clock: whoever drives it decides how often it
steps, and when to look at the screen and the sound timer.

The program counter is kept as it was computed and only reduced modulo 4096 to fetch, so it can
stand above the last address; so can the index register.

Return addresses stand in sixteen slots, the first `sp` of which are in use. A return leaves its
slot as it is, and the next call writes over it. `stack` lists the slots in use, the latest call
first.

* `length_stack`, `stack_push`, `stack_of_sp_eq_succ`: calls and returns as they show in that list.
* `reset_eq`: what a reset keeps is its counters and its random bytes.
-/

namespace ChipEight

/-- An endless supply of random bytes and how many of them were used. -/
structure RandomBytes where
  supply : Nat → Byte
  drawn : Nat := 0

namespace RandomBytes

/-- The byte that is drawn next. -/
def next (r : RandomBytes) : Byte := r.supply r.drawn

/-- The supply after one byte was drawn. -/
def advance (r : RandomBytes) : RandomBytes := { r with drawn := r.drawn + 1 }

/-- The bytes of a list over and over; zeros if it is empty. -/
def cycle (bytes : Array Byte) : RandomBytes := ⟨fun k => bytes.getD (k % bytes.size) 0, 0⟩

end RandomBytes

/-- How the machine treats what programs disagree on. -/
structure Options where
  /-- Stop on words that are no instruction, instead of reporting them and stalling. -/
  strict : Bool := false
  /-- Let `8xyE` shift to the right. -/
  legacyShift : Bool := false
  deriving DecidableEq, Repr

/-- How deep calls may nest. -/
def Machine.stackDepth : Nat := 16

/-- The state of the interpreter. The defaults are those of a new one. -/
structure Machine where
  memory : Memory := .blank
  registers : Registers := .zero
  index : Nat := 0
  pc : Nat := Memory.programStart
  /-- Room for return addresses. -/
  slots : Vector Word Machine.stackDepth := .replicate Machine.stackDepth 0
  /-- How many of the slots are in use. -/
  sp : Nat := 0
  delay : Byte := 0
  sound : Byte := 0
  keypad : Keypad := .idle
  screen : Screen := .dark
  /-- Did the screen change since the last time somebody took note? -/
  redraw : Bool := true
  /-- Did the cycle that ran last write to the screen? -/
  dirty : Bool := false
  /-- Steps since the machine was built, the faulting ones included. -/
  cycles : Nat := 0
  /-- Writes to the screen since the machine was built. -/
  frames : Nat := 0
  random : RandomBytes

namespace Machine

/-- A new machine. -/
def boot (random : RandomBytes) : Machine := { random }

/-- Start over: give every field its first value, except for the counters and the random bytes. -/
def reset (m : Machine) : Machine :=
  { m with
    memory := .blank
    registers := .zero
    index := 0
    pc := Memory.programStart
    slots := .replicate stackDepth 0
    sp := 0
    delay := 0
    sound := 0
    keypad := .idle
    screen := .dark
    redraw := true
    dirty := false }

theorem reset_eq (m : Machine) :
    m.reset = { boot m.random with cycles := m.cycles, frames := m.frames } := by
  rw [reset, boot]

/-- The address that the next instruction is fetched from. -/
def codeAddress (m : Machine) : Nat := m.pc % 4096

/-- The word there. -/
def word (m : Machine) : Word :=
  Word.ofBytes (m.memory.read m.codeAddress) (m.memory.read (m.codeAddress + 1))

/-- The instruction there. -/
def instruction (m : Machine) : Instruction := .decode m.word

/-- Arm the latches of the keys that are down. -/
def arm (m : Machine) (down : KeySet) : Machine := { m with keypad := m.keypad.arm down }

/-- Take note of the screen. -/
def noteRedraw (m : Machine) : Machine := { m with redraw := false }

/-! ### The stack -/

/-- What a slot holds; zero if there is no such slot. -/
def slot (m : Machine) (k : Nat) : Word := m.slots[k]?.getD 0

/-- The return addresses in use, the latest first. -/
def stack (m : Machine) : List Word := (List.range m.sp).reverse.map m.slot

/-- The return addresses in use, the oldest first. -/
def callers (m : Machine) : List Word := m.stack.reverse

/-- Put a return address on the stack. -/
def push (m : Machine) (caller : Word) : Machine :=
  { m with slots := m.slots.setIfInBounds m.sp caller, sp := m.sp + 1 }

/-- Take a return address off the stack, leaving its slot as it is. -/
def pop (m : Machine) : Machine := { m with sp := m.sp - 1 }

@[simp] theorem length_stack (m : Machine) : m.stack.length = m.sp := by
  simp [stack]

theorem stack_congr {m m' : Machine} (hslots : m'.slots = m.slots) (hsp : m'.sp = m.sp) :
    m'.stack = m.stack := by
  have same : m'.slot = m.slot := by
    funext k
    rw [slot, slot, hslots]
  rw [stack, stack, hsp, same]

theorem stack_eq_nil_iff (m : Machine) : m.stack = [] ↔ m.sp = 0 := by
  rw [← List.length_eq_zero_iff, length_stack]

theorem stack_of_sp_eq_succ {m : Machine} {k : Nat} (h : m.sp = k + 1) :
    m.stack = m.slot k :: m.pop.stack := by
  rw [stack, stack, h, List.range_succ, List.reverse_append, List.reverse_singleton,
    List.singleton_append, List.map_cons, pop, h, Nat.add_sub_cancel]
  rfl

theorem slot_push_self {m : Machine} (room : m.sp < stackDepth) (caller : Word) :
    (m.push caller).slot m.sp = caller := by
  simp [slot, push, room]

theorem slot_push_of_ne {m : Machine} {k : Nat} (h : m.sp ≠ k) (caller : Word) :
    (m.push caller).slot k = m.slot k := by
  rw [slot, push, Vector.getElem?_setIfInBounds_ne h, slot]

theorem stack_push {m : Machine} (room : m.sp < stackDepth) (caller : Word) :
    (m.push caller).stack = caller :: m.stack := by
  have below : ∀ k ∈ (List.range m.sp).reverse, (m.push caller).slot k = m.slot k := by
    intro k hk
    rw [List.mem_reverse, List.mem_range] at hk
    exact slot_push_of_ne (Nat.ne_of_gt hk) caller
  rw [stack_of_sp_eq_succ rfl, slot_push_self room]
  exact congrArg (caller :: ·) (List.map_congr_left below)

theorem eq_slot_cons_of_stack {m : Machine} {caller : Word} {callers : List Word}
    (h : m.stack = caller :: callers) :
    caller = m.slot (m.sp - 1) ∧ callers = m.pop.stack := by
  have used : m.sp = callers.length + 1 := by rw [← length_stack, h, List.length_cons]
  rw [stack_of_sp_eq_succ used, List.cons.injEq] at h
  rw [used, Nat.add_sub_cancel]
  exact ⟨h.1.symm, h.2.symm⟩

/-! ### Bounds -/

/-- What every machine keeps that started new: a bounded program counter and index, a bounded
stack and bounded latches. Bytes and words are bounded by their types. -/
structure WellFormed (m : Machine) : Prop where
  pc_le : m.pc ≤ 65537
  index_le : m.index ≤ 65535
  sp_le : m.sp ≤ stackDepth
  latch_le : ∀ k, m.keypad.latch k ≤ Keypad.duration

end Machine
end ChipEight
