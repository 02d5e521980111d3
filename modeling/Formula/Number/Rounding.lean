import Formula.Number.Power

/-!
# Rounding a quotient to an integer

Two rules for the integer nearest to a quotient of natural numbers. They differ only half way
between two integers: `divHalfEven` takes the even one, `divHalfUp` the larger one.
-/

namespace Formula

/-- The integer nearest `num / den`, a half going to the even neighbour. -/
def divHalfEven (num den : Nat) : Nat :=
  if 2 * (num % den) < den ∨ (2 * (num % den) = den ∧ num / den % 2 = 0) then num / den
  else num / den + 1

/-- The integer nearest `num / den`, a half going up. -/
def divHalfUp (num den : Nat) : Nat := (2 * num + den) / (2 * den)

/-- Rounding adds one at most. -/
theorem divHalfEven_le (num den : Nat) : divHalfEven num den ≤ num / den + 1 := by
  unfold divHalfEven; split <;> omega

/-- Rounding never goes below the whole part. -/
theorem le_divHalfEven (num den : Nat) : num / den ≤ divHalfEven num den := by
  unfold divHalfEven; split <;> omega

/-- A quotient without remainder is not rounded. -/
theorem divHalfEven_mul_left {den : Nat} (h : 0 < den) (n : Nat) :
    divHalfEven (n * den) den = n := by
  simp [divHalfEven, Nat.mul_div_cancel n h, h]

/-- Rounding to the nearest integer moves by at most a half. -/
theorem two_mul_divHalfEven_le {num den : Nat} (h : 0 < den) :
    2 * (divHalfEven num den * den) ≤ 2 * num + den ∧
      2 * num ≤ 2 * (divHalfEven num den * den) + den := by
  have hdiv := Nat.div_add_mod' num den
  have hmod := Nat.mod_lt num h
  unfold divHalfEven
  split
  · omega
  · rw [Nat.add_mul]; omega

end Formula
