import ChipEight.Number.Rounding

/-!
# Double precision numbers

Numbers of 64 bits as the standard for binary floating point lays them out: 53 bits of precision and
exponents from -1074 to 971. They are kept as exact values, so that rounding is arithmetic on
natural numbers.

* `Binary64.nearest`: the double nearest to a quotient of natural numbers, a tie going to the even
  one, and infinity where the exponent ends.
* `Binary64.bits`: the 64 bits of a double.
-/

namespace ChipEight

/-- A double without its sign. -/
inductive Magnitude where
  /-- `m * 2 ^ q`. -/
  | finite (m : Nat) (q : Int)
  | infinite
  /-- Not a number. -/
  | undefined
  deriving DecidableEq, Repr

/-- A double. -/
structure Binary64 where
  negative : Bool
  magnitude : Magnitude
  deriving DecidableEq, Repr

namespace Magnitude

/-- A quotient divided by a power of two, as a quotient. -/
def unscale (num den : Nat) (q : Int) : Nat × Nat := (num <<< (-q).toNat, den <<< q.toNat)

/-- The exponent that leaves 53 bits of a quotient before the point, or the least exponent. -/
def exponentOf (num den : Nat) : Int :=
  let low : Int := (num.log2 : Int) - den.log2 - 53
  let scaled := unscale num den low
  max (-1074) (if 1 <<< 53 ≤ scaled.1 / scaled.2 then low + 1 else low)

/-- The double nearest to `num / den`. -/
def nearest (num den : Nat) : Magnitude :=
  if num = 0 then .finite 0 (-1074)
  else
    let q := exponentOf num den
    let scaled := unscale num den q
    let m := roundQuotient scaled.1 scaled.2
    let (m, q) := if m = 1 <<< 53 then (1 <<< 52, q + 1) else (m, q)
    if 971 < q then .infinite else .finite m q

/-- The exact quotient that a finite double stands for. -/
def quotient (m : Nat) (q : Int) : Nat × Nat := (m <<< q.toNat, 1 <<< (-q).toNat)

/-- The exponent and fraction bits. -/
def bits : Magnitude → Nat
  | .finite m q => if m < 1 <<< 52 then m else ((q + 1075).toNat <<< 52) + (m - 1 <<< 52)
  | .infinite => 2047 <<< 52
  | .undefined => (2047 <<< 52) + (1 <<< 51)

end Magnitude

namespace Binary64

/-- The double nearest to a natural number; infinite beyond the largest double. -/
def ofNat (n : Nat) : Binary64 := ⟨false, .nearest n 1⟩

/-- The double nearest to a signed quotient. -/
def ofQuotient (negative : Bool) (num den : Nat) : Binary64 := ⟨negative, .nearest num den⟩

/-- Is it a zero of either sign? -/
def isZero (x : Binary64) : Bool :=
  match x.magnitude with
  | .finite m _ => m == 0
  | _ => false

/-- Is it a number and neither infinity? -/
def isFinite (x : Binary64) : Bool :=
  match x.magnitude with
  | .finite _ _ => true
  | _ => false

/-- The double nearest to `x / y`, for `y` not zero. What is not a number stays so, and a quotient
of infinities is none. -/
def div (x y : Binary64) : Binary64 :=
  { negative := x.negative ^^ y.negative
    magnitude :=
      match x.magnitude, y.magnitude with
      | .finite m q, .finite m' q' =>
        let (num, den) := Magnitude.quotient m q
        let (num', den') := Magnitude.quotient m' q'
        .nearest (num * den') (den * num')
      | .finite _ _, .infinite => .finite 0 (-1074)
      | .infinite, .finite _ _ => .infinite
      | _, _ => .undefined }

/-- The 64 bits as a number. -/
def bits (x : Binary64) : Nat := (if x.negative then 1 <<< 63 else 0) + x.magnitude.bits

/-- The double `1`. -/
def one : Binary64 := ofNat 1

/-- The double `1 / n`, where `n` is rounded to a double first. -/
def inverse (n : Nat) : Binary64 := one.div (ofNat n)

end Binary64
end ChipEight
