/-!
# Rounding a quotient

`roundQuotient num den` is the natural number nearest to `num / den`; of two that are equally near
it is the even one.

* `roundQuotient_near`: it is at most half a unit away.
* `roundQuotient_tie`: from a half the even neighbour is taken.
-/

namespace ChipEight

/-- The natural number nearest to a quotient, the even one of two. -/
def roundQuotient (num den : Nat) : Nat :=
  let floor := num / den
  let twice := 2 * (num % den)
  if twice < den then floor
  else if den < twice then floor + 1
  else floor + floor % 2

theorem roundQuotient_near (num : Nat) {den : Nat} (h : 0 < den) :
    2 * num ≤ 2 * (den * roundQuotient num den) + den ∧
      2 * (den * roundQuotient num den) ≤ 2 * num + den := by
  have hdiv := Nat.div_add_mod num den
  have hmod := Nat.mod_lt num h
  have hsucc : den * (num / den + 1) = den * (num / den) + den := Nat.mul_succ ..
  unfold roundQuotient
  dsimp only
  split
  · omega
  · split
    · rw [hsucc]
      omega
    · rcases Nat.mod_two_eq_zero_or_one (num / den) with he | ho
      · rw [he, Nat.add_zero]
        omega
      · rw [ho, hsucc]
        omega

theorem roundQuotient_tie {num den : Nat} (h : 2 * (num % den) = den) :
    roundQuotient num den % 2 = 0 := by
  unfold roundQuotient
  simp only [h, Nat.lt_irrefl, ↓reduceIte]
  omega

end ChipEight
