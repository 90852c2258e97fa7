/-!
# Rounding and counting digits in the naturals

`divRoundEven n d` is the natural number nearest to `n / d`, an exact half going to the even
neighbour, and `digitCount n` is the number of decimal digits of `n`.  Every conversion between
decimals and binary fractions in this library is one quotient rounded by `divRoundEven`.
-/

namespace FormulaFusion

/-- The natural number nearest to `n / d`; of two equally near, the even one. -/
def divRoundEven (n d : Nat) : Nat :=
  if 2 * (n % d) < d then n / d
  else if d < 2 * (n % d) then n / d + 1
  else n / d + n / d % 2

/-- The rounded quotient is never more than half a unit too large. -/
theorem two_mul_divRoundEven_mul_le (n d : Nat) :
    2 * (divRoundEven n d * d) ≤ 2 * n + d := by
  have split := Nat.div_add_mod' n d
  unfold divRoundEven
  split
  · omega
  · split
    · rw [Nat.add_mul]; omega
    · rcases Nat.mod_two_eq_zero_or_one (n / d) with even | odd
      · rw [even, Nat.add_zero]; omega
      · rw [odd, Nat.add_mul]; omega

/-- The rounded quotient is never more than half a unit too small. -/
theorem two_mul_le_divRoundEven_mul (n d : Nat) (pos : 0 < d) :
    2 * n ≤ 2 * (divRoundEven n d * d) + d := by
  have split := Nat.div_add_mod' n d
  have bound := Nat.mod_lt n pos
  unfold divRoundEven
  split
  · omega
  · split
    · rw [Nat.add_mul]; omega
    · rw [Nat.add_mul]; omega

/-- The number of decimal digits of `n`; zero has one. -/
def digitCount (n : Nat) : Nat := (Nat.toDigits 10 n).length

theorem digitCount_pos (n : Nat) : 0 < digitCount n := Nat.length_toDigits_pos

theorem digitCount_le_iff (n k : Nat) (pos : 0 < k) : digitCount n ≤ k ↔ n < Nat.pow 10 k :=
  Nat.length_toDigits_le_iff (by decide) pos

end FormulaFusion
