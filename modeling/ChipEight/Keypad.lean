import ChipEight.Word

/-!
# Keypad

Sixteen keys. A report of the keys that are down arms their latches for a hundred cycles; a latch
counts down each cycle and is cleared when an instruction reads it.

* `latch_arm`, `latch_age`, `latch_consume`: what each operation does to one latch.
-/

namespace ChipEight

/-- A set of keys; bit `k` stands for key `k`. -/
abbrev KeySet := BitVec 16

/-- The set of the keys that are down in a list of states, key zero first. -/
def KeySet.ofList (down : List Bool) : KeySet := (BitVec.ofBoolListLE down).setWidth 16

/-- The set of one key. -/
def KeySet.single (k : Nibble) : KeySet := BitVec.twoPow 16 k.val

theorem KeySet.getLsbD_ofList (down : List Bool) (k : Nibble) :
    (KeySet.ofList down).getLsbD k = down.getD k false := by
  simp [ofList, BitVec.getLsbD_ofBoolListLE]

theorem KeySet.getLsbD_single (j k : Nibble) :
    (KeySet.single j).getLsbD k = decide (j = k) := by
  simp [single, Fin.ext_iff, eq_comm]

/-- The countdown of each key. -/
structure Keypad where
  latches : Vector Nat 16
  deriving DecidableEq

namespace Keypad

/-- How many cycles a reported key stays armed. -/
def duration : Nat := 100

/-- No key armed. -/
def idle : Keypad := ⟨Vector.replicate 16 0⟩

/-- What is left of the countdown of a key. -/
def latch (p : Keypad) (k : Nibble) : Nat := getElem p.latches k.val k.val_lt

/-- Is the key still armed? -/
def armed (p : Keypad) (k : Nibble) : Bool := 0 < p.latch k

/-- Arm every key of a set; the others keep their countdown. -/
def arm (p : Keypad) (down : KeySet) : Keypad :=
  ⟨Vector.ofFn fun k => if down.getLsbD k then duration else p.latch k⟩

/-- Let a cycle pass. -/
def age (p : Keypad) : Keypad := ⟨p.latches.map (· - 1)⟩

/-- Clear the latch of a key that was read. -/
def consume (p : Keypad) (k : Nibble) : Keypad := ⟨p.latches.set k.val 0 k.val_lt⟩

/-- The lowest armed key. -/
def lowest? (p : Keypad) : Option Nibble := (List.finRange 16).find? p.armed

@[simp] theorem latch_idle (k : Nibble) : idle.latch k = 0 := by
  simp [latch, idle]

theorem latch_arm (p : Keypad) (down : KeySet) (k : Nibble) :
    (p.arm down).latch k = if down.getLsbD k then duration else p.latch k := by
  simp [arm, latch]

theorem latch_age (p : Keypad) (k : Nibble) : p.age.latch k = p.latch k - 1 := by
  simp [age, latch]

theorem latch_consume (p : Keypad) (j k : Nibble) :
    (p.consume j).latch k = if j = k then 0 else p.latch k := by
  simp [consume, latch, Vector.getElem_set, Fin.ext_iff]

theorem ext_latch {p q : Keypad} (h : ∀ k, p.latch k = q.latch k) : p = q := by
  cases p with
  | mk latches =>
    cases q with
    | mk latches' =>
      congr 1
      apply Vector.ext
      intro i hi
      simpa [latch] using h ⟨i, hi⟩

end Keypad
end ChipEight
