import ChipEight.Word

/-!
# Registers

The sixteen byte registers `V0` to `VF`. The last one doubles as the flag of arithmetic and of
drawing.

* `get_set`: a write changes its own register and no other.
-/

namespace ChipEight

/-- The register file. -/
structure Registers where
  cells : Vector Byte 16
  deriving DecidableEq

namespace Registers

/-- All registers zero. -/
def zero : Registers := ⟨Vector.replicate 16 0⟩

/-- The register that holds flags. -/
def flag : Nibble := 15

/-- The value of a register. -/
def get (v : Registers) (x : Nibble) : Byte := getElem v.cells x.val x.val_lt

/-- The registers with one of them replaced. -/
def set (v : Registers) (x : Nibble) (b : Byte) : Registers := ⟨v.cells.set x.val b x.val_lt⟩

/-- The registers with `x` replaced and then the flag; where both are the same register the flag
stays. -/
def setWithFlag (v : Registers) (x : Nibble) (b : Byte) (up : Bool) : Registers :=
  (v.set x b).set flag (flagByte up)

/-- The registers that `value` gives, one by one. -/
def ofFn (value : Nibble → Byte) : Registers := ⟨Vector.ofFn value⟩

/-- The values of the registers up to and including `x`. -/
def upTo (v : Registers) (x : Nibble) : List Byte := v.cells.toList.take (x.val + 1)

@[simp] theorem get_zero (x : Nibble) : zero.get x = 0 := by
  simp [get, zero]

@[simp] theorem get_ofFn (value : Nibble → Byte) (x : Nibble) : (ofFn value).get x = value x := by
  simp [get, ofFn]

theorem get_set (v : Registers) (x y : Nibble) (b : Byte) :
    (v.set x b).get y = if x = y then b else v.get y := by
  simp [get, set, Vector.getElem_set, Fin.ext_iff]

end Registers
end ChipEight
