/-!
# Hexadecimal text

Numbers in base sixteen with upper-case digits, as listings and messages write them.

* `fixed k n`: exactly `k` digits.
* `padded k n`: at least `k` digits, and as many as `n` needs.
-/

namespace ChipEight
namespace Hex

/-- The digit for a number below sixteen. -/
def digit (d : Nat) : Char := Char.ofNat (if d < 10 then 48 + d else 55 + d)

/-- The last `k` digits of `n`, the most significant first. -/
def fixed : Nat → Nat → List Char
  | 0, _ => []
  | k + 1, n => fixed k (n / 16) ++ [digit (n % 16)]

/-- How many digits `n` has; zero has one. -/
def width (n : Nat) : Nat := n.log2 / 4 + 1

/-- `n` with leading zeros up to `k` digits. -/
def padded (k n : Nat) : String := String.ofList (fixed (max k (width n)) n)

@[simp] theorem length_fixed (k n : Nat) : (fixed k n).length = k := by
  induction k generalizing n with
  | zero => rfl
  | succ k ih => simp [fixed, ih]

end Hex
end ChipEight
