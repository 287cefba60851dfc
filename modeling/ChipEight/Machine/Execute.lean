import ChipEight.Fault
import ChipEight.Machine

/-!
# Executing an instruction

What each instruction does to the machine. Only three can fail: `ret` on an empty stack, `call` on a
full one or from an address that no stack entry can hold, and an unknown word on a strict machine.
These are written as the steps they take, since a failure undoes nothing: the machine is left as it
was when they failed.

Instructions that set the flag write their result first, so the flag register ends as the flag.

* `enter_of_full`, `enter_of_unstorable`, `enter_of_room`, `leave_of_empty`, `leave_of_stack`,
  `stray_of_strict`, `stray_of_lenient`: what those three come to.
-/

namespace ChipEight
namespace Machine

/-- Go on to the following instruction. -/
def next (m : Machine) : Machine := { m with pc := (m.pc + 2) % 65536 }

/-- Go on, over one instruction if the condition holds. -/
def skipIf (m : Machine) (condition : Bool) : Machine :=
  { m with pc := (m.pc + if condition then 4 else 2) % 65536 }

/-- The value of a register. -/
def v (m : Machine) (x : Nibble) : Byte := m.registers.get x

/-- Put a value into a register. -/
def setV (m : Machine) (x : Nibble) (b : Byte) : Machine :=
  { m with registers := m.registers.set x b }

/-- Put a value into a register and then a flag into the last one. -/
def setFlagged (m : Machine) (x : Nibble) (b : Byte) (up : Bool) : Machine :=
  { m with registers := m.registers.setWithFlag x b up }

/-- Put a flag into the last register. -/
def setFlag (m : Machine) (up : Bool) : Machine := m.setV Registers.flag (flagByte up)

/-- Write bytes where the index register points. -/
def storeAtIndex (m : Machine) (bytes : List Byte) : Machine :=
  { m with memory := m.memory.writeAll m.index bytes }

/-- Replace the picture and announce it. -/
def paint (m : Machine) (screen : Screen) : Machine :=
  { m with screen, redraw := true, dirty := true, frames := m.frames + 1 }

/-- The sprite of `height` rows at the index, laid out where two registers say. -/
def sprite (m : Machine) (x y height : Nibble) : Screen :=
  .layout ((m.v y).toNat % 32) ((m.v x).toNat % 64) (m.memory.slice m.index height)

/-- Draw a sprite; the flag goes up when it meets a lit pixel. -/
def drawSprite (m : Machine) (x y height : Nibble) : Machine :=
  let sprite := m.sprite x y height
  (m.setFlag (m.screen.overlaps sprite)).paint (m.screen.xor sprite)

/-- The key that a register names by its low nibble. -/
def keyIn (m : Machine) (x : Nibble) : Nibble := Fin.ofNat 16 (m.v x).toNat

/-- The hundreds, tens and ones of a byte. -/
def digitsOf (b : Byte) : List Byte :=
  [.ofNat 8 (b.toNat / 100), .ofNat 8 (b.toNat / 10 % 10), .ofNat 8 (b.toNat % 10)]

/-- Shift a register right; the flag takes the bit that falls out. -/
def shiftRight (m : Machine) (x : Nibble) : Machine :=
  m.setFlagged x (m.v x >>> 1) ((m.v x).getLsbD 0)

/-- Shift a register left; the flag takes the bit that falls out. -/
def shiftLeft (m : Machine) (x : Nibble) : Machine :=
  m.setFlagged x (m.v x <<< 1) ((m.v x).getLsbD 7)

/-- Use the armed state of a key, clearing it, and skip if it is as wanted. -/
def skipOnKey (m : Machine) (key : Nibble) (wanted : Bool) : Machine :=
  let armed := m.keypad.armed key
  let read := if armed then { m with keypad := m.keypad.consume key } else m
  read.skipIf (armed == wanted)

/-- Take the lowest armed key, or stay where we are. -/
def awaitKey (m : Machine) (x : Nibble) : Machine :=
  match m.keypad.lowest? with
  | none => m
  | some key =>
    ({ m with keypad := m.keypad.consume key }.setV x (BitVec.ofNat 8 key.val)).next

/-! ### Instructions that can fail -/

/-- What an instruction ends in: the machine it made, or a fault and the machine it had made by
then. -/
abbrev Outcome := EStateM.Result Fault Machine Unit

/-- The steps of an instruction that can fail. -/
abbrev Handler := EStateM Fault Machine Unit

/-- Enter a subroutine. -/
def enter (target : Address) : Handler := do
  let m ← get
  if stackDepth ≤ m.sp then
    throw (.stackOverflow m.pc)
  if 65535 < m.pc then
    throw (.unstorableReturn m.pc)
  modify (·.push (BitVec.ofNat 16 m.pc))
  modify fun m => { m with pc := target.toNat }

/-- Leave a subroutine, to the instruction after the call. -/
def leave : Handler := do
  let m ← get
  if m.sp = 0 then
    throw (.stackUnderflow m.pc)
  modify pop
  modify fun m => { m with pc := (m.slot m.sp).toNat + 2 }

/-- Fail on a word that is no instruction, or stay where we are. -/
def stray (o : Options) (w : Word) : Handler := do
  if o.strict then
    throw (.unknownOpcode w (← get).pc)

section

variable {m : Machine}

theorem enter_of_full (full : stackDepth ≤ m.sp) (target : Address) :
    (enter target).run m = .error (.stackOverflow m.pc) m := by
  simp [enter, full]

theorem enter_of_unstorable (room : m.sp < stackDepth) (high : 65535 < m.pc)
    (target : Address) : (enter target).run m = .error (.unstorableReturn m.pc) m := by
  simp [enter, Nat.not_le_of_lt room, high]

theorem enter_of_room (room : m.sp < stackDepth) (storable : m.pc ≤ 65535) (target : Address) :
    (enter target).run m =
      .ok () { m.push (BitVec.ofNat 16 m.pc) with pc := target.toNat } := by
  simp [enter, Nat.not_le_of_lt room, Nat.not_lt_of_le storable]

theorem leave_of_empty (empty : m.sp = 0) :
    leave.run m = .error (.stackUnderflow m.pc) m := by
  simp [leave, empty]

theorem leave_of_stack {caller : Word} {callers : List Word}
    (top : m.stack = caller :: callers) :
    leave.run m = .ok () { m.pop with pc := caller.toNat + 2 } := by
  have used : m.sp ≠ 0 := by
    rw [← length_stack, top]
    exact Nat.succ_ne_zero _
  rw [(eq_slot_cons_of_stack top).1]
  simp [leave, used, pop, slot]

theorem stray_of_strict {o : Options} (strict : o.strict = true) (w : Word) :
    (stray o w).run m = .error (.unknownOpcode w m.pc) m := by
  simp [stray, strict]

theorem stray_of_lenient {o : Options} (lenient : o.strict = false) (w : Word) :
    (stray o w).run m = .ok () m := by
  simp [stray, lenient]

end

/-- Carry out one instruction. -/
def execute (o : Options) (m : Machine) : Instruction → Outcome
  | .clearScreen => .ok () (m.paint .dark).next
  | .ret => leave.run m
  | .jump a => .ok () { m with pc := a.toNat }
  | .call a => (enter a).run m
  | .skipIfByte x b => .ok () (m.skipIf (m.v x == b))
  | .skipUnlessByte x b => .ok () (m.skipIf (m.v x != b))
  | .skipIfSame x y => .ok () (m.skipIf (m.v x == m.v y))
  | .loadByte x b => .ok () (m.setV x b).next
  | .addByte x b => .ok () (m.setV x (m.v x + b)).next
  | .copy x y => .ok () (m.setV x (m.v y)).next
  | .or x y => .ok () (m.setV x (m.v x ||| m.v y)).next
  | .and x y => .ok () (m.setV x (m.v x &&& m.v y)).next
  | .xor x y => .ok () (m.setV x (m.v x ^^^ m.v y)).next
  | .add x y =>
    .ok () (m.setFlagged x (m.v x + m.v y) (decide (255 < (m.v x).toNat + (m.v y).toNat))).next
  | .sub x y => .ok () (m.setFlagged x (m.v x - m.v y) (decide (m.v y < m.v x))).next
  | .shiftRight x => .ok () (m.shiftRight x).next
  | .subFrom x y => .ok () (m.setFlagged x (m.v y - m.v x) (decide (m.v x < m.v y))).next
  | .shiftLeft x => .ok () (if o.legacyShift then m.shiftRight x else m.shiftLeft x).next
  | .skipUnlessSame x y => .ok () (m.skipIf (m.v x != m.v y))
  | .loadIndex a => .ok () { m with index := a.toNat }.next
  | .jumpFrom a => .ok () { m with pc := a.toNat + (m.v 0).toNat }
  | .random x mask =>
    .ok () ({ m with random := m.random.advance }.setV x (m.random.next &&& mask)).next
  | .draw x y n => .ok () (m.drawSprite x y n).next
  | .skipIfKey x => .ok () (m.skipOnKey (m.keyIn x) true)
  | .skipUnlessKey x => .ok () (m.skipOnKey (m.keyIn x) false)
  | .readDelay x => .ok () (m.setV x m.delay).next
  | .waitKey x => .ok () (m.awaitKey x)
  | .setDelay x => .ok () { m with delay := m.v x }.next
  | .setSound x => .ok () { m with sound := m.v x }.next
  | .addIndex x =>
    let total := m.index + (m.v x).toNat
    .ok () ({ m with index := total % 65536 }.setFlag (decide (4095 < total))).next
  | .pointGlyph x => .ok () { m with index := Memory.glyphSize * ((m.v x).toNat % 16) }.next
  | .storeDigits x => .ok () (m.storeAtIndex (digitsOf (m.v x))).next
  | .storeRegisters x => .ok () (m.storeAtIndex (m.registers.upTo x)).next
  | .loadRegisters x =>
    .ok () { m with registers := .ofFn fun j =>
            if j ≤ x then m.memory.read (m.index + j.val) else m.v j }.next
  | .unknown w => (stray o w).run m

end Machine
end ChipEight
