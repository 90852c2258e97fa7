import Mathlib.Algebra.Order.Field.Basic
import Mathlib.Algebra.Order.Field.Power
import Mathlib.Algebra.Order.Ring.Int
import Mathlib.Data.Int.Cast.Lemmas
import Mathlib.Tactic.Linarith
import Mathlib.Tactic.Ring
import FormulaFusion.Proofs.Number.SevenDigits

/-!
# Doubles and decimals as rational numbers

`Binary64.value` is the number that a finite double stands for, and `Decimal.value` that of a decimal.
Seen as rationals, the seven digits of a double are its value rounded to seven significant digits
(`Binary64.isSevenDigits_value_sevenDigits`), and the double that is read from a fraction is the nearest
one, a tie going to the even significand (`Binary64.isNearest_nearest`).
-/

namespace FormulaFusion

/-! ## Nearest integers -/

/-- The integer `n` is the one nearest to `q`; of two equally near, the even one. -/
def IsNearestEven (q : ℚ) (n : ℤ) : Prop := |n - q| ≤ 1 / 2 ∧ (|n - q| = 1 / 2 → Even n)

namespace IsNearestEven

variable {q : ℚ} {n : ℤ}

theorem neg (near : IsNearestEven q n) : IsNearestEven (-q) (-n) := by
  have same : |((-n : ℤ) : ℚ) - -q| = |(n : ℚ) - q| := by
    rw [← abs_neg]
    congr 1
    push_cast
    ring
  rw [IsNearestEven, same, even_neg]
  exact near

/-- No integer is nearer, and another one is as near only if `n` is even. -/
theorem le_abs_sub (near : IsNearestEven q n) (k : ℤ) :
    |n - q| ≤ |k - q| ∧ (|k - q| = |n - q| → k = n ∨ Even n) := by
  by_cases same : k = n
  · subst same
    exact ⟨le_refl _, fun _ => .inl rfl⟩
  have apart : (1 : ℚ) ≤ |(k : ℚ) - n| := by
    exact_mod_cast Int.one_le_abs (sub_ne_zero.2 same)
  have triangle : |(k : ℚ) - n| ≤ |k - q| + |n - q| := by
    have := abs_sub_le (k : ℚ) q n
    rwa [abs_sub_comm q] at this
  obtain ⟨half, tie⟩ := near
  exact ⟨by linarith, fun equal => .inr (tie (by linarith))⟩

end IsNearestEven

/-- A quotient that lies half way between two numbers is rounded to the even one. -/
theorem divRoundEven_mod_two_of_tie {n d : Nat} (pos : 0 < d)
    (tie : 2 * (divRoundEven n d * d) = 2 * n + d ∨ 2 * n = 2 * (divRoundEven n d * d) + d) :
    divRoundEven n d % 2 = 0 := by
  have split := Nat.div_add_mod' n d
  have bound := Nat.mod_lt n pos
  unfold divRoundEven at *
  split_ifs at * with low high
  · omega
  · rw [Nat.add_mul] at tie
    omega
  · omega

theorem isNearestEven_divRoundEven (n : Nat) {d : Nat} (pos : 0 < d) :
    IsNearestEven (n / d) (divRoundEven n d) := by
  have above : (2 * (divRoundEven n d * d) : ℚ) ≤ 2 * n + d := by
    exact_mod_cast two_mul_divRoundEven_mul_le n d
  have below : (2 * n : ℚ) ≤ 2 * (divRoundEven n d * d) + d := by
    exact_mod_cast two_mul_le_divRoundEven_mul n d pos
  have pos' : (0 : ℚ) < d := by exact_mod_cast pos
  have scaled : |((divRoundEven n d : ℤ) : ℚ) - n / d| = |(divRoundEven n d * d - n : ℚ)| / d := by
    rw [← abs_of_pos pos', ← abs_div, abs_of_pos pos', Int.cast_natCast, sub_div,
      mul_div_cancel_right₀ _ pos'.ne']
  rw [IsNearestEven, scaled, div_le_iff₀ pos', div_eq_iff pos'.ne', abs_le]
  refine ⟨⟨by linarith, by linarith⟩, fun tie => ?_⟩
  have even : divRoundEven n d % 2 = 0 := by
    apply divRoundEven_mod_two_of_tie pos
    rcases abs_eq_abs.1 (tie.trans (abs_of_pos (by linarith)).symm) with more | less
    · left
      have : (2 * (divRoundEven n d * d) : ℚ) = 2 * n + d := by linarith
      exact_mod_cast this
    · right
      have : (2 * n : ℚ) = 2 * (divRoundEven n d * d) + d := by linarith
      exact_mod_cast this
  exact (Int.even_coe_nat _).2 (Nat.even_iff.2 even)

/-! ## Values -/

/-- A number with a sign. -/
def signed (negative : Bool) (q : ℚ) : ℚ := if negative then -q else q

theorem abs_signed_sub_signed (negative : Bool) (p q : ℚ) :
    |signed negative p - signed negative q| = |p - q| := by
  cases negative with
  | false => rfl
  | true => simp only [signed, if_true, neg_sub_neg, abs_sub_comm]

theorem abs_signed_sub_signed_not (negative : Bool) (p q : ℚ) :
    |signed (!negative) p - signed negative q| = |p + q| := by
  cases negative with
  | false =>
    simp only [signed, Bool.not_false, if_true, Bool.false_eq_true, if_false]
    rw [← abs_neg, neg_sub, sub_neg_eq_add, add_comm]
  | true => simp only [signed, Bool.not_true, if_true, Bool.false_eq_true, if_false, sub_neg_eq_add]

@[simp]
theorem signed_eq_zero_iff (negative : Bool) (q : ℚ) : signed negative q = 0 ↔ q = 0 := by
  cases negative <;> simp [signed]

/-- The number that a decimal stands for. -/
def Decimal.value (d : Decimal) : ℚ := d.coefficient * 10 ^ d.exponent

namespace Binary64

/-- The number that a finite double stands for. -/
def value (x : Binary64) : ℚ := signed x.isNegative (x.steps / 2 ^ 1074)

theorem cast_stepsOfOne : (stepsOfOne : ℚ) = 2 ^ 1074 := by
  unfold stepsOfOne
  simp only [Nat.pow_eq, Nat.cast_pow, Nat.cast_ofNat]

theorem cast_partsOfStep : (partsOfStep : ℚ) = 10 ^ 330 := by
  unfold partsOfStep
  simp only [Nat.pow_eq, Nat.cast_pow, Nat.cast_ofNat]

theorem value_eq (x : Binary64) : x.value = signed x.isNegative (x.steps / stepsOfOne) := by
  rw [value, cast_stepsOfOne]

theorem cast_stepsOfOne_pos : (0 : ℚ) < stepsOfOne := by exact_mod_cast stepsOfOne_pos

theorem cast_partsOfStep_pos : (0 : ℚ) < partsOfStep := by exact_mod_cast partsOfStep_pos

/-! ## Nearest doubles -/

/-- The finite double `w` is the one nearest to `q`: none is nearer, and if another number is as near,
the significand of `w` is even. -/
def IsNearest (w : Binary64) (q : ℚ) : Prop :=
  ∀ y : Binary64, y.isFinite = true → |w.value - q| ≤ |y.value - q| ∧
    (|y.value - q| = |w.value - q| → y.value = w.value ∨ w.significand % 2 = 0)

/-- A double is a multiple of the distance of the doubles in a binade, unless it lies below them. -/
theorem exists_steps_eq_or_lt (y : Binary64) (b : Nat) :
    (∃ k : Nat, y.steps = k * 2 ^ b) ∨ 0 < b ∧ y.steps < 2 ^ 52 * 2 ^ b := by
  rcases Nat.lt_or_ge y.binade b with low | high
  · right
    have significand_lt : y.significand < 2 ^ 53 := by
      simp only [significand, binade, Nat.pow_eq]
      omega
    refine ⟨Nat.zero_lt_of_lt low, ?_⟩
    calc y.steps
        < 2 ^ 53 * 2 ^ y.binade := Nat.mul_lt_mul_of_pos_right significand_lt (Nat.two_pow_pos _)
      _ = 2 ^ 52 * 2 ^ (y.binade + 1) := by rw [← Nat.pow_add, ← Nat.pow_add]; congr 1; omega
      _ ≤ 2 ^ 52 * 2 ^ b := Nat.mul_le_mul_left _ (Nat.pow_le_pow_right (by decide) low)
  · left
    refine ⟨y.significand * 2 ^ (y.binade - b), ?_⟩
    rw [Nat.mul_assoc, ← Nat.pow_add, Nat.sub_add_cancel high]
    rfl

/-- Among all doubles, the multiple nearest to a number in a binade is the nearest. -/
theorem le_abs_steps_sub {r : ℚ} {b m : Nat} (near : IsNearestEven (r / 2 ^ b) m)
    (normal : 0 < b → 2 ^ 52 * 2 ^ b ≤ r) (y : Binary64) :
    |(m * 2 ^ b : ℚ) - r| ≤ |y.steps - r| ∧
      (|y.steps - r| = |(m * 2 ^ b : ℚ) - r| → (y.steps : ℚ) = m * 2 ^ b ∨ Even m) := by
  have unit_pos : (0 : ℚ) < 2 ^ b := by positivity
  have scaled : ∀ k : Nat, |(k * 2 ^ b : ℚ) - r| = |((k : ℤ) : ℚ) - r / 2 ^ b| * 2 ^ b := by
    intro k
    rw [← abs_of_pos unit_pos, ← abs_mul, abs_of_pos unit_pos, sub_mul,
      div_mul_cancel₀ _ unit_pos.ne', Int.cast_natCast]
  have multiple : ∀ k : Nat, |(m * 2 ^ b : ℚ) - r| ≤ |(k * 2 ^ b : ℚ) - r| ∧
      (|(k * 2 ^ b : ℚ) - r| = |(m * 2 ^ b : ℚ) - r| → k = m ∨ Even m) := by
    intro k
    obtain ⟨le, tie⟩ := near.le_abs_sub k
    rw [scaled, scaled, mul_left_inj' unit_pos.ne']
    refine ⟨mul_le_mul_of_nonneg_right le unit_pos.le, fun equal => ?_⟩
    exact_mod_cast tie equal
  rcases y.exists_steps_eq_or_lt b with ⟨k, steps⟩ | ⟨b_pos, below⟩
  · have steps' : (y.steps : ℚ) = k * 2 ^ b := by exact_mod_cast steps
    rw [steps']
    refine ⟨(multiple k).1, fun equal => ((multiple k).2 equal).imp_left ?_⟩
    rintro rfl
    rfl
  · -- The least normal double of the binade lies between `y` and the number.
    have below' : (y.steps : ℚ) < 2 ^ 52 * 2 ^ b := by exact_mod_cast below
    have above := normal b_pos
    have edge := (multiple (2 ^ 52)).1
    rw [Nat.cast_pow, Nat.cast_ofNat, abs_sub_comm (2 ^ 52 * 2 ^ b),
      abs_of_nonneg (sub_nonneg.2 above)] at edge
    have gap : 0 ≤ r - y.steps := by linarith
    have far : |(m * 2 ^ b : ℚ) - r| < |y.steps - r| := by
      rw [abs_sub_comm (y.steps : ℚ), abs_of_nonneg gap]
      linarith
    exact ⟨far.le, fun equal => absurd equal far.ne'⟩

theorem significand_mod_two (x : Binary64) : x.significand % 2 = x.magnitude % 2 := by
  simp only [significand, binade, Nat.pow_eq]
  omega

theorem steps_zero (negative : Bool) : (zero negative).steps = 0 := by
  rw [steps, significand, zero, magnitude_ofMagnitude _ _ (by decide), Nat.zero_sub, Nat.zero_mul]

/-- It is enough to compare magnitudes: a double of the other sign is never nearer than zero. -/
theorem isNearest_of_steps {w : Binary64} {q : ℚ} (nonneg : 0 ≤ q)
    (each : ∀ y : Binary64, |w.steps - q * stepsOfOne| ≤ |y.steps - q * stepsOfOne| ∧
      (|y.steps - q * stepsOfOne| = |w.steps - q * stepsOfOne| →
        (y.steps : ℚ) = w.steps ∨ w.significand % 2 = 0)) :
    w.IsNearest (signed w.isNegative q) := by
  intro y _
  have one_pos := cast_stepsOfOne_pos
  have scaled : ∀ a : ℚ, |a / stepsOfOne - q| = |a - q * stepsOfOne| / stepsOfOne := by
    intro a
    rw [← abs_of_pos one_pos, ← abs_div, abs_of_pos one_pos, sub_div,
      mul_div_cancel_right₀ _ one_pos.ne']
  obtain ⟨le, tie⟩ := each y
  rw [value_eq, value_eq, abs_signed_sub_signed, scaled]
  by_cases same : y.isNegative = w.isNegative
  · rw [same, abs_signed_sub_signed, scaled, div_left_inj' one_pos.ne']
    refine ⟨div_le_div_of_nonneg_right le one_pos.le, fun equal => (tie equal).imp_left ?_⟩
    intro steps
    rw [steps]
  · obtain ⟨zero_le, zero_tie⟩ := each (zero false)
    rw [steps_zero, Nat.cast_zero, zero_sub, abs_neg, abs_of_nonneg (mul_nonneg nonneg one_pos.le)]
      at zero_le zero_tie
    have sum_nonneg : 0 ≤ (y.steps : ℚ) / stepsOfOne + q :=
      add_nonneg (div_nonneg (Nat.cast_nonneg _) one_pos.le) nonneg
    have sum : (y.steps : ℚ) / stepsOfOne + q = (y.steps + q * stepsOfOne) / stepsOfOne := by
      rw [add_div, mul_div_cancel_right₀ _ one_pos.ne']
    have steps_nonneg : (0 : ℚ) ≤ y.steps := Nat.cast_nonneg _
    rw [Bool.eq_not_of_ne same, abs_signed_sub_signed_not, abs_of_nonneg sum_nonneg, sum,
      div_left_inj' one_pos.ne']
    refine ⟨div_le_div_of_nonneg_right (by linarith) one_pos.le, fun equal => ?_⟩
    have none : (y.steps : ℚ) = 0 := by linarith
    refine (zero_tie (by linarith)).imp_left fun steps => ?_
    rw [none, ← steps, zero_div]
    simp [signed]

/-- The double that is read from a fraction is the nearest one. -/
theorem isNearest_nearest (negative : Bool) {num den : Nat} (pos : 0 < den)
    (finite : nearestMagnitude num den < infiniteMagnitude) :
    (nearest negative num den).IsNearest (signed negative (num / den)) := by
  have den_pos : (0 : ℚ) < den := by exact_mod_cast pos
  have steps := steps_nearest negative pos finite
  have magnitude := nearestMagnitude_eq num den
  have near := isNearestEven_divRoundEven (num * stepsOfOne)
    (Nat.mul_pos pos (Nat.two_pow_pos (targetBinade num den)))
  have normal := (targetBinade_bounds num pos).2
  have sign := isNegative_nearest negative num den
  have parity := (nearest negative num den).significand_mod_two
  rw [magnitude_nearest] at parity
  generalize divRoundEven (num * stepsOfOne) (den * 2 ^ targetBinade num den) = m at *
  generalize targetBinade num den = b at *
  have value : (num / den * stepsOfOne : ℚ) = num * stepsOfOne / den := by rw [div_mul_eq_mul_div]
  nth_rewrite 2 [← sign]
  refine isNearest_of_steps (by positivity) fun y => ?_
  have dist := le_abs_steps_sub (r := num / den * stepsOfOne) (b := b) (m := m) ?near ?normal y
  case near =>
    rw [value, div_div]
    exact_mod_cast near
  case normal =>
    intro b_pos
    rw [value, le_div_iff₀ den_pos]
    have := normal b_pos
    rw [Nat.mul_comm den, ← Nat.mul_assoc] at this
    exact_mod_cast this
  rw [steps, Nat.cast_mul, Nat.cast_pow, Nat.cast_ofNat]
  refine ⟨dist.1, fun equal => (dist.2 equal).imp_right fun even => ?_⟩
  have := Nat.even_iff.1 even
  omega

/-! ## Seven digits -/

end Binary64

/-- The number `r` is `q` rounded to seven significant digits: the nearest multiple of the unit of the
seventh digit, and of two equally near the even one. -/
def IsSevenDigits (q r : ℚ) : Prop :=
  q = 0 ∧ r = 0 ∨ ∃ decade n : ℤ, 10 ^ decade ≤ |q| ∧ |q| < 10 ^ (decade + 1) ∧
    IsNearestEven (q / 10 ^ (decade - 6)) n ∧ r = n * 10 ^ (decade - 6)

theorem IsSevenDigits.signed {q r : ℚ} (rounded : IsSevenDigits q r) (negative : Bool) :
    IsSevenDigits (signed negative q) (signed negative r) := by
  cases negative with
  | false => exact rounded
  | true =>
    rcases rounded with ⟨rfl, rfl⟩ | ⟨decade, n, low, high, near, rfl⟩
    · exact .inl ⟨neg_zero, neg_zero⟩
    · refine .inr ⟨decade, -n, ?_, ?_, ?_, ?_⟩
      all_goals simp only [FormulaFusion.signed, if_true]
      · rwa [abs_neg]
      · rwa [abs_neg]
      · rw [neg_div]
        exact near.neg
      · rw [Int.cast_neg, neg_mul]

namespace Binary64

theorem zpow_mul_partsOfStep (D : Nat) : (10 : ℚ) ^ ((D : ℤ) - 330) * partsOfStep = 10 ^ D := by
  have ten : (10 : ℚ) ≠ 0 := by norm_num
  rw [zpow_sub₀ ten, zpow_natCast, cast_partsOfStep, zpow_ofNat,
    div_mul_cancel₀ _ (pow_ne_zero _ ten)]

/-- The unit of a decade is the power of ten that its seventh digit counts. -/
theorem cast_decimalUnit (D : Nat) :
    (decimalUnit D : ℚ) = 10 ^ ((D : ℤ) - 330) * (stepsOfOne * partsOfStep) := by
  rw [mul_left_comm, zpow_mul_partsOfStep, decimalUnit, Nat.cast_mul, Nat.cast_pow, Nat.cast_ofNat]

theorem value_sevenDigits (x : Binary64) : x.sevenDigits.value =
    divRoundEven (x.steps * partsOfStep) (decimalUnit x.decade) * 10 ^ ((x.decade : ℤ) - 330) := by
  rw [sevenDigits_eq_ite]
  generalize divRoundEven (x.steps * partsOfStep) (decimalUnit x.decade) = c
  split_ifs with carry
  · have next : (10 : ℚ) ^ ((x.decade : ℤ) - 329) = 10 ^ ((x.decade : ℤ) - 330) * 10 := by
      rw [← zpow_add_one₀ (by norm_num)]
      congr 1
      omega
    rw [Decimal.value, next, carry]
    push_cast
    ring
  · rfl

/-- A positive double is written with its value rounded to seven digits. -/
theorem isSevenDigits_value_sevenDigits {x : Binary64} (pos : 0 < x.steps) :
    IsSevenDigits (x.steps / stepsOfOne) x.sevenDigits.value := by
  obtain ⟨low, high⟩ := (decade_eq_iff pos x.decade).1 rfl
  have near := isNearestEven_divRoundEven (x.steps * partsOfStep) (decimalUnit_pos x.decade)
  have low' : (10 ^ 6 * decimalUnit x.decade : ℚ) ≤ x.steps * partsOfStep := by exact_mod_cast low
  have high' : (x.steps * partsOfStep : ℚ) < 10 ^ 7 * decimalUnit x.decade := by exact_mod_cast high
  have one_pos := cast_stepsOfOne_pos
  have scale_pos := mul_pos one_pos cast_partsOfStep_pos
  have nonneg : (0 : ℚ) ≤ x.steps / stepsOfOne := div_nonneg (Nat.cast_nonneg _) one_pos.le
  have scaled : (x.steps : ℚ) * partsOfStep = x.steps / stepsOfOne * (stepsOfOne * partsOfStep) := by
    rw [← mul_assoc, div_mul_cancel₀ _ one_pos.ne']
  rw [Nat.cast_mul, scaled, cast_decimalUnit, mul_div_mul_right _ _ scale_pos.ne'] at near
  rw [scaled, cast_decimalUnit, ← mul_assoc (10 ^ 6), mul_le_mul_iff_left₀ scale_pos] at low'
  rw [scaled, cast_decimalUnit, ← mul_assoc (10 ^ 7), mul_lt_mul_iff_left₀ scale_pos] at high'
  have ten : (10 : ℚ) ≠ 0 := by norm_num
  have unit : (x.decade : ℤ) - 324 - 6 = x.decade - 330 := by omega
  refine .inr ⟨x.decade - 324, divRoundEven (x.steps * partsOfStep) (decimalUnit x.decade), ?_, ?_,
    ?_, ?_⟩
  · rw [abs_of_nonneg nonneg, show (x.decade : ℤ) - 324 = 6 + (x.decade - 330) by omega,
      zpow_add₀ ten]
    exact low'
  · rw [abs_of_nonneg nonneg, show (x.decade : ℤ) - 324 + 1 = 7 + (x.decade - 330) by omega,
      zpow_add₀ ten]
    exact high'
  · rw [unit]
    exact near
  · rw [unit, value_sevenDigits, Int.cast_natCast]

end Binary64

end FormulaFusion
