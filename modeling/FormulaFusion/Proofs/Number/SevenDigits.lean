import Mathlib.Algebra.Group.Nat.Defs
import Mathlib.Tactic.SplitIfs
import FormulaFusion.Number.Scientific

/-!
# Seven digits survive the way to a double and back

A positive finite double is rounded to a decimal of seven significant digits, and the decimal is
rounded to the nearest double.  Rounding that double to seven digits again gives the same decimal
(`Binary64.sevenDigits_toBinary64`).  Everything is compared in multiples of `2 ^ (-1074)` times
`10 ^ (-330)`, where both doubles and decimals are whole numbers: the decimals of decade `D` stand
`decimalUnit D` apart, and the doubles of binade `b` stand `2 ^ b * 10 ^ 330` apart.  From the decade
`8` on doubles are so much denser than decimals that the way back cannot miss; below the decade `7`
they are so much sparser that the double itself comes back; the decade `7` lies between.
-/

namespace FormulaFusion

/-- A rounded quotient is the only number within half a unit. -/
theorem divRoundEven_eq_of_near {n d q : Nat} (low : 2 * (q * d) < 2 * n + d)
    (high : 2 * n < 2 * (q * d) + d) : divRoundEven n d = q := by
  have pos : 0 < d := by omega
  have above := two_mul_divRoundEven_mul_le n d
  have below := two_mul_le_divRoundEven_mul n d pos
  refine Nat.le_antisymm ?_ ?_
  · refine Nat.le_of_lt_add_one (Nat.lt_of_mul_lt_mul_right (a := d) ?_)
    rw [Nat.add_one_mul]
    omega
  · refine Nat.le_of_lt_add_one (Nat.lt_of_mul_lt_mul_right (a := d) ?_)
    rw [Nat.add_one_mul]
    omega

theorem digitCount_eq_succ_iff {n : Nat} (pos : 0 < n) (k : Nat) :
    digitCount n = k + 1 ↔ 10 ^ k ≤ n ∧ n < 10 ^ (k + 1) := by
  have upper := digitCount_le_iff n (k + 1) (by omega)
  have count := digitCount_pos n
  rw [Nat.pow_eq] at upper
  cases k with
  | zero =>
    rw [Nat.pow_zero]
    omega
  | succ k =>
    have lower := digitCount_le_iff n (k + 1) (by omega)
    rw [Nat.pow_eq] at lower
    omega

theorem le_of_near {v d m k : Nat} (above : 2 * (m * d) ≤ 2 * v + d) (top : v < k * d) : m ≤ k := by
  refine Nat.le_of_lt_add_one (Nat.lt_of_mul_lt_mul_right (a := d) ?_)
  rw [Nat.add_one_mul k]
  omega

/-- A comparison with the fraction `v / d`, where `d` is cancelled against `v * p = u * d`. -/
theorem near_of_mul_eq {v d p t m u : Nat} (pos : 0 < d) (scaled : v * p = u * d) :
    (2 * (m * (d * t)) ≤ 2 * v + d * t → 2 * (m * t * p) ≤ 2 * u + t * p) ∧
      (2 * v ≤ 2 * (m * (d * t)) + d * t → 2 * u ≤ 2 * (m * t * p) + t * p) ∧
      ∀ k, k * (d * t) ≤ v → k * (t * p) ≤ u := by
  have left : 2 * (m * (d * t)) * p = 2 * (m * t * p) * d := by ac_rfl
  have right : (2 * v + d * t) * p = (2 * u + t * p) * d := by
    rw [Nat.add_mul, Nat.add_mul, Nat.mul_assoc 2, scaled]
    ac_rfl
  have left' : 2 * v * p = 2 * u * d := by rw [Nat.mul_assoc, scaled, Nat.mul_assoc]
  have right' : (2 * (m * (d * t)) + d * t) * p = (2 * (m * t * p) + t * p) * d := by
    rw [Nat.add_mul, Nat.add_mul, left]
    ac_rfl
  refine ⟨fun le => ?_, fun le => ?_, fun k le => ?_⟩
  all_goals
    refine Nat.le_of_mul_le_mul_right ?_ pos
    have := Nat.mul_le_mul_right p le
  · rwa [left, right] at this
  · rwa [left', right'] at this
  · rwa [scaled, show k * (d * t) * p = k * (t * p) * d by ac_rfl] at this

namespace Binary64

/-! ## Decades -/

/-- The number of steps that make one. -/
def stepsOfOne : Nat := Nat.pow 2 1074

/-- The number from which decades are counted, turned round. -/
def decadeScale : Nat := Nat.pow 10 324

/-- The number of parts into which a step is cut, so that every decimal is a whole number. -/
def partsOfStep : Nat := Nat.pow 10 330

theorem pow_mul_partsOfStep (n : Nat) : 10 ^ n * partsOfStep = 10 ^ (n + 330) := by
  unfold partsOfStep
  rw [Nat.pow_add, ← Nat.pow_eq (m := 10) (n := 330)]

theorem decade_eq (x : Binary64) :
    x.decade = digitCount (x.steps * decadeScale / stepsOfOne) - 1 := by
  unfold decade decadeScale stepsOfOne
  with_reducible rfl

/-- The distance of decimals with seven digits whose first digit stands for `10 ^ (D - 324)`. -/
def decimalUnit (D : Nat) : Nat := stepsOfOne * 10 ^ D

/-- The scales compared.  Decimals of the decade 6 are denser than doubles, those of the decade 8 much
less dense, and the least decimal of the decade 7 is 2024022.53… steps. -/
theorem scale_bounds : 0 < stepsOfOne ∧ 0 < partsOfStep ∧
    partsOfStep = 10 ^ 6 * decadeScale ∧ stepsOfOne ≤ decadeScale ∧
    decimalUnit 6 < partsOfStep ∧ partsOfStep < decimalUnit 7 ∧
    20 * partsOfStep < decimalUnit 8 ∧
    2 * (2024022 * partsOfStep) + partsOfStep < 2 * (10 ^ 6 * decimalUnit 7) ∧
    10 ^ 6 * decimalUnit 7 < 2024023 * partsOfStep := by
  decide +kernel

theorem stepsOfOne_pos : 0 < stepsOfOne := scale_bounds.1

theorem partsOfStep_pos : 0 < partsOfStep := scale_bounds.2.1

theorem decimalUnit_pos (D : Nat) : 0 < decimalUnit D :=
  Nat.mul_pos stepsOfOne_pos (Nat.pow_pos (by decide))

theorem decimalUnit_succ (D : Nat) : decimalUnit (D + 1) = 10 * decimalUnit D := by
  rw [decimalUnit, decimalUnit, Nat.pow_succ, Nat.mul_comm (10 ^ D), Nat.mul_left_comm]

theorem decimalUnit_mono {D E : Nat} (le : D ≤ E) : decimalUnit D ≤ decimalUnit E :=
  Nat.mul_le_mul_left _ (Nat.pow_le_pow_right (by decide) le)

theorem decade_eq_iff {x : Binary64} (pos : 0 < x.steps) (D : Nat) : x.decade = D ↔
    10 ^ 6 * decimalUnit D ≤ x.steps * partsOfStep ∧
      x.steps * partsOfStep < 10 ^ 7 * decimalUnit D := by
  obtain ⟨-, -, parts, whole, -⟩ := scale_bounds
  have unit : 10 ^ 7 * decimalUnit D = 10 ^ 6 * decimalUnit (D + 1) := by
    rw [decimalUnit_succ]
    omega
  have value_pos : 0 < x.steps * decadeScale / stepsOfOne :=
    Nat.div_pos (Nat.le_trans whole (Nat.le_mul_of_pos_left _ pos)) stepsOfOne_pos
  rw [unit, parts, decade_eq, Nat.mul_left_comm x.steps, Nat.mul_le_mul_left_iff (by decide),
    Nat.mul_lt_mul_left (by decide), decimalUnit, decimalUnit, Nat.mul_comm stepsOfOne,
    Nat.mul_comm stepsOfOne, ← Nat.le_div_iff_mul_le stepsOfOne_pos,
    ← Nat.div_lt_iff_lt_mul stepsOfOne_pos, ← digitCount_eq_succ_iff value_pos]
  have := digitCount_pos (x.steps * decadeScale / stepsOfOne)
  omega

/-! ## Rounding to seven digits -/

theorem sevenDigits_eq_ite (x : Binary64) : x.sevenDigits =
    if divRoundEven (x.steps * partsOfStep) (decimalUnit x.decade) = 10 ^ 7 then
      ⟨10 ^ 6, x.decade - 329⟩
    else ⟨divRoundEven (x.steps * partsOfStep) (decimalUnit x.decade), x.decade - 330⟩ := by
  unfold sevenDigits decimalUnit stepsOfOne partsOfStep
  rw [← Nat.pow_eq (m := 10) (n := x.decade), ← Nat.pow_eq (m := 10) (n := 7),
    ← Nat.pow_eq (m := 10) (n := 6)]

/-- A positive double is rounded to a decimal with seven digits at most half a unit away. -/
theorem exists_sevenDigits {x : Binary64} (pos : 0 < x.steps) :
    ∃ c D : Nat, x.sevenDigits = ⟨c, D - 330⟩ ∧ 10 ^ 6 ≤ c ∧ c < 10 ^ 7 ∧
      2 * (c * decimalUnit D) ≤ 2 * (x.steps * partsOfStep) + decimalUnit D ∧
      2 * (x.steps * partsOfStep) ≤ 2 * (c * decimalUnit D) + decimalUnit D := by
  obtain ⟨low, high⟩ := (decade_eq_iff pos x.decade).1 rfl
  have unit_pos := decimalUnit_pos x.decade
  have above := two_mul_divRoundEven_mul_le (x.steps * partsOfStep) (decimalUnit x.decade)
  have below := two_mul_le_divRoundEven_mul (x.steps * partsOfStep) (decimalUnit x.decade) unit_pos
  rw [sevenDigits_eq_ite]
  generalize divRoundEven (x.steps * partsOfStep) (decimalUnit x.decade) = c at above below ⊢
  have c_low : 10 ^ 6 ≤ c := by
    refine Nat.le_of_lt_add_one (Nat.lt_of_mul_lt_mul_right (a := decimalUnit x.decade) ?_)
    rw [Nat.add_one_mul c]
    omega
  have c_high : c ≤ 10 ^ 7 := by
    refine Nat.le_of_lt_add_one (Nat.lt_of_mul_lt_mul_right (a := decimalUnit x.decade) ?_)
    rw [Nat.add_one_mul]
    omega
  split_ifs with carry
  · -- Ten units of a decade are one unit of the next.
    subst carry
    refine ⟨10 ^ 6, x.decade + 1, ?_, Nat.le_refl _, by decide, ?_, ?_⟩
    · simp only [Decimal.mk.injEq, true_and]
      omega
    · rw [decimalUnit_succ]
      omega
    · rw [decimalUnit_succ]
      omega
  · exact ⟨c, x.decade, rfl, c_low, by omega, above, below⟩

/-- A decimal with seven digits less than half a unit away is the one that a double is rounded to.
At the lower end of a decade, where decimals are denser below, it has to be ten times nearer. -/
theorem sevenDigits_eq_of_near {w : Binary64} {c D : Nat} (pos : 0 < w.steps) (c_low : 10 ^ 6 ≤ c)
    (c_high : c < 10 ^ 7)
    (low : 2 * (c * decimalUnit D) < 2 * (w.steps * partsOfStep) + decimalUnit D)
    (high : 2 * (w.steps * partsOfStep) < 2 * (c * decimalUnit D) + decimalUnit D)
    (edge : w.steps * partsOfStep < 10 ^ 6 * decimalUnit D →
      0 < D ∧ 20 * (c * decimalUnit D) < 20 * (w.steps * partsOfStep) + decimalUnit D) :
    w.sevenDigits = ⟨c, D - 330⟩ := by
  have unit_pos := decimalUnit_pos D
  have c_times : c * decimalUnit D + decimalUnit D ≤ 10 ^ 7 * decimalUnit D := by
    rw [← Nat.add_one_mul]
    exact Nat.mul_le_mul_right _ c_high
  have c_times' : 10 ^ 6 * decimalUnit D ≤ c * decimalUnit D := Nat.mul_le_mul_right _ c_low
  rw [sevenDigits_eq_ite]
  rcases Nat.lt_or_ge (w.steps * partsOfStep) (10 ^ 6 * decimalUnit D) with under | above
  · obtain ⟨D_pos, near⟩ := edge under
    obtain ⟨E, rfl⟩ : ∃ E, D = E + 1 := ⟨D - 1, by omega⟩
    have c_eq : c = 10 ^ 6 := by
      refine Nat.le_antisymm ?_ c_low
      refine Nat.le_of_lt_add_one (Nat.lt_of_mul_lt_mul_right (a := decimalUnit (E + 1)) ?_)
      rw [Nat.add_one_mul]
      omega
    subst c_eq
    rw [decimalUnit_succ] at *
    have decade : w.decade = E := by
      rw [decade_eq_iff pos]
      omega
    rw [decade, divRoundEven_eq_of_near (q := 10 ^ 7) (by omega) (by omega), if_pos rfl]
    simp only [Decimal.mk.injEq, true_and]
    omega
  · have decade : w.decade = D := by
      rw [decade_eq_iff pos]
      omega
    rw [decade, divRoundEven_eq_of_near low high, if_neg (by omega)]

/-! ## Rounding to doubles -/

/-- The double with significand `m` in binade `b`, also where the significand carries into the next
binade. -/
theorem steps_ofMagnitude (negative : Bool) {b m : Nat} (fits : m ≤ 2 ^ 53)
    (normal : b = 0 ∨ 2 ^ 52 ≤ m) (small : b * 2 ^ 52 + m < 2 ^ 63) :
    (ofMagnitude negative (b * 2 ^ 52 + m)).steps = m * 2 ^ b := by
  rw [steps, significand, binade, magnitude_ofMagnitude _ _ small]
  simp only [Nat.pow_eq, -Nat.reducePow]
  rcases Nat.lt_or_ge m (2 ^ 52) with subnormal | usual
  · obtain rfl : b = 0 := by omega
    rw [show (0 * 2 ^ 52 + m) / 2 ^ 52 - 1 = 0 by omega, Nat.zero_mul, Nat.zero_add, Nat.sub_zero]
  rcases Nat.lt_or_ge m (2 ^ 53) with low | full
  · rw [show (b * 2 ^ 52 + m) / 2 ^ 52 - 1 = b by omega, Nat.add_sub_cancel_left]
  · obtain rfl : m = 2 ^ 53 := by omega
    rw [show (b * 2 ^ 52 + 2 ^ 53) / 2 ^ 52 - 1 = b + 1 by omega,
      show b * 2 ^ 52 + 2 ^ 53 - (b + 1) * 2 ^ 52 = 2 ^ 52 by omega, ← Nat.pow_add, ← Nat.pow_add,
      show 52 + (b + 1) = 53 + b by omega]

/-- A magnitude in steps lies less than `53` bits above its binade, and not below `52` bits unless
the binade is the lowest. -/
theorem targetBinade_bounds (num : Nat) {den : Nat} (pos : 0 < den) :
    num * stepsOfOne < 2 ^ 53 * (den * 2 ^ targetBinade num den) ∧
      (0 < targetBinade num den →
        2 ^ 52 * (den * 2 ^ targetBinade num den) ≤ num * stepsOfOne) := by
  have binade_eq : targetBinade num den = (num * stepsOfOne / den).log2 - 52 := by
    unfold targetBinade stepsOfOne
    with_reducible rfl
  generalize targetBinade num den = b at *
  generalize num * stepsOfOne = value at *
  constructor
  · have top : value / den < 2 ^ (53 + b) :=
      Nat.lt_of_lt_of_le Nat.lt_log2_self (Nat.pow_le_pow_right (by decide) (by omega))
    rw [Nat.div_lt_iff_lt_mul pos, Nat.pow_add] at top
    rwa [Nat.mul_comm den, ← Nat.mul_assoc]
  · intro normal
    have nonzero : value / den ≠ 0 := by
      intro zero
      simp [zero] at binade_eq
      omega
    have bottom : 2 ^ (52 + b) ≤ value / den := by
      rw [show 52 + b = (value / den).log2 by omega]
      exact Nat.log2_self_le nonzero
    rw [Nat.le_div_iff_mul_le pos, Nat.pow_add] at bottom
    rwa [Nat.mul_comm den, ← Nat.mul_assoc]

theorem nearestMagnitude_eq (num den : Nat) :
    nearestMagnitude num den = min (targetBinade num den * 2 ^ 52 +
      divRoundEven (num * stepsOfOne) (den * 2 ^ targetBinade num den)) infiniteMagnitude := by
  unfold nearestMagnitude stepsOfOne
  rw [← Nat.pow_eq (m := 2) (n := 52), ← Nat.pow_eq (m := 2) (n := targetBinade num den)]

/-- The double nearest to `num / den` is the rounded number of units of the binade in which it is
rounded, also where the number carries into the next binade. -/
theorem steps_nearest (negative : Bool) {num den : Nat} (pos : 0 < den)
    (finite : nearestMagnitude num den < infiniteMagnitude) :
    (nearest negative num den).steps =
      divRoundEven (num * stepsOfOne) (den * 2 ^ targetBinade num den) *
        2 ^ targetBinade num den := by
  have magnitude_eq := nearestMagnitude_eq num den
  obtain ⟨top, bottom⟩ := targetBinade_bounds num pos
  have above := two_mul_divRoundEven_mul_le (num * stepsOfOne) (den * 2 ^ targetBinade num den)
  have below := two_mul_le_divRoundEven_mul (num * stepsOfOne) (den * 2 ^ targetBinade num den)
    (Nat.mul_pos pos (Nat.two_pow_pos _))
  rw [nearest]
  generalize divRoundEven (num * stepsOfOne) (den * 2 ^ targetBinade num den) = m at *
  generalize targetBinade num den = b at *
  have exact : nearestMagnitude num den = b * 2 ^ 52 + m := by omega
  have bound : infiniteMagnitude < 2 ^ 63 := by decide
  have unit_pos : 0 < den * 2 ^ b := Nat.mul_pos pos (Nat.two_pow_pos _)
  have fits : m ≤ 2 ^ 53 := le_of_near above top
  have normal : b = 0 ∨ 2 ^ 52 ≤ m := by
    rcases Nat.eq_zero_or_pos b with zero | normal
    · exact .inl zero
    · right
      have := bottom normal
      refine Nat.le_of_lt_add_one (Nat.lt_of_mul_lt_mul_right (a := den * 2 ^ b) ?_)
      rw [Nat.add_one_mul m]
      omega
  rw [exact]
  exact steps_ofMagnitude negative fits normal (by omega)

/-- The double nearest to `num / den` is at most half the distance of its neighbours away. -/
theorem exists_steps_nearest (negative : Bool) {num den : Nat} (pos : 0 < den)
    (finite : nearestMagnitude num den < infiniteMagnitude) :
    ∃ b m, (nearest negative num den).steps = m * 2 ^ b ∧
      2 * (m * (den * 2 ^ b)) ≤ 2 * (num * stepsOfOne) + den * 2 ^ b ∧
      2 * (num * stepsOfOne) ≤ 2 * (m * (den * 2 ^ b)) + den * 2 ^ b ∧
      (0 < b → 2 ^ 52 * (den * 2 ^ b) ≤ num * stepsOfOne) :=
  ⟨targetBinade num den, _, steps_nearest negative pos finite, two_mul_divRoundEven_mul_le _ _,
    two_mul_le_divRoundEven_mul _ _ (Nat.mul_pos pos (Nat.two_pow_pos _)),
    (targetBinade_bounds num pos).2⟩

/-- The double nearest to a decimal `c * 10 ^ (D - 330)`, compared with it part by part. -/
theorem exists_near_decimal (negative : Bool) {num den c D : Nat} (pos : 0 < den)
    (value : num * partsOfStep = c * 10 ^ D * den)
    (finite : nearestMagnitude num den < infiniteMagnitude) :
    ∃ b, 2 * ((nearest negative num den).steps * partsOfStep) ≤
        2 * (c * decimalUnit D) + 2 ^ b * partsOfStep ∧
      2 * (c * decimalUnit D) ≤
        2 * ((nearest negative num den).steps * partsOfStep) + 2 ^ b * partsOfStep ∧
      (0 < b → 2 ^ 52 * (2 ^ b * partsOfStep) ≤ c * decimalUnit D) := by
  obtain ⟨b, m, steps, above, below, normal⟩ := exists_steps_nearest negative pos finite
  have scaled : num * stepsOfOne * partsOfStep = c * decimalUnit D * den := by
    rw [Nat.mul_right_comm, value, decimalUnit, Nat.mul_right_comm _ den, Nat.mul_assoc c,
      Nat.mul_comm (10 ^ D)]
  obtain ⟨above', below', normal'⟩ := near_of_mul_eq (t := 2 ^ b) (m := m) pos scaled
  rw [steps]
  exact ⟨b, above' above, below' below, fun b_pos => normal' _ (normal b_pos)⟩

/-! ## Finite doubles -/

/-- The binade of the largest finite doubles. -/
def topBinade : Nat := 2045

/-- The distance of doubles in the highest binade. -/
def topUnit : Nat := 2 ^ topBinade

theorem two_pow_le_topUnit {b : Nat} (le : b ≤ topBinade) : 2 ^ b ≤ topUnit :=
  Nat.pow_le_pow_right (by decide) le

/-- The largest decimal with seven digits to which a finite double is rounded, in steps. -/
def largestDecimal : Nat := 1797693 * 10 ^ 302 * 2 ^ 1074

theorem steps_le_of_isFinite {x : Binary64} (finite : x.isFinite = true) :
    x.steps ≤ (2 ^ 53 - 1) * topUnit := by
  have bound : x.magnitude < 2047 * 2 ^ 52 := of_decide_eq_true finite
  have binade_le : x.binade ≤ topBinade := by
    simp only [binade, topBinade, Nat.pow_eq]
    omega
  have significand_le : x.significand ≤ 2 ^ 53 - 1 := by
    simp only [significand, binade, Nat.pow_eq]
    omega
  exact Nat.mul_le_mul significand_le (two_pow_le_topUnit binade_le)

/-- The largest decimal is the last before the largest finite doubles, and above the decade 631. -/
theorem largestDecimal_bounds :
    10 ^ 7 * decimalUnit 631 ≤ largestDecimal * partsOfStep ∧
    1797693 * decimalUnit 632 ≤ largestDecimal * partsOfStep ∧
    largestDecimal * partsOfStep < 10 ^ 6 * decimalUnit 633 ∧
    2 * ((2 ^ 53 - 1) * topUnit * partsOfStep) + decimalUnit 632 <
      2 * (1797694 * decimalUnit 632) ∧
    2 * ((2 ^ 53 - 1) * topUnit * partsOfStep) < 10 ^ 6 * decimalUnit 633 ∧
    largestDecimal < 2 ^ 53 * topUnit ∧ 2 * largestDecimal + topUnit < 2 ^ 54 * topUnit := by
  decide +kernel

/-- No finite double is rounded up beyond the largest decimal. -/
theorem decimal_le_largestDecimal {x : Binary64} (finite : x.isFinite = true) {c D : Nat}
    (c_low : 10 ^ 6 ≤ c) (c_high : c < 10 ^ 7)
    (near : 2 * (c * decimalUnit D) ≤ 2 * (x.steps * partsOfStep) + decimalUnit D) :
    c * decimalUnit D ≤ largestDecimal * partsOfStep := by
  have most : x.steps * partsOfStep ≤ (2 ^ 53 - 1) * topUnit * partsOfStep :=
    Nat.mul_le_mul_right _ (steps_le_of_isFinite finite)
  obtain ⟨lower_le, last_le, -, beyond_last, beyond, -⟩ := largestDecimal_bounds
  rcases Nat.lt_trichotomy D 632 with lower | rfl | higher
  · calc c * decimalUnit D
        ≤ 10 ^ 7 * decimalUnit 631 :=
          Nat.mul_le_mul (Nat.le_of_lt c_high) (decimalUnit_mono (by omega))
      _ ≤ largestDecimal * partsOfStep := lower_le
  · have c_le : c ≤ 1797693 := by
      refine Nat.le_of_lt_add_one (Nat.lt_of_mul_lt_mul_right (a := decimalUnit 632) ?_)
      omega
    calc c * decimalUnit 632
        ≤ 1797693 * decimalUnit 632 := Nat.mul_le_mul_right _ c_le
      _ ≤ largestDecimal * partsOfStep := last_le
  · have unit_le : decimalUnit 633 ≤ decimalUnit D := decimalUnit_mono higher
    have c_times : 10 ^ 6 * decimalUnit D ≤ c * decimalUnit D := Nat.mul_le_mul_right _ c_low
    omega

theorem decade_le_of_le_largestDecimal {c D : Nat} (c_low : 10 ^ 6 ≤ c)
    (small : c * decimalUnit D ≤ largestDecimal * partsOfStep) : D ≤ 632 := by
  apply Nat.le_of_not_lt
  intro beyond
  have large := largestDecimal_bounds.2.2.1
  have := Nat.mul_le_mul c_low (decimalUnit_mono (show 633 ≤ D from beyond))
  omega

/-- The double nearest to a decimal up to the largest one is finite. -/
theorem nearestMagnitude_lt {num den : Nat} (pos : 0 < den)
    (small : num * stepsOfOne ≤ largestDecimal * den) :
    nearestMagnitude num den < infiniteMagnitude := by
  obtain ⟨top, bottom⟩ := targetBinade_bounds num pos
  have above := two_mul_divRoundEven_mul_le (num * stepsOfOne) (den * 2 ^ targetBinade num den)
  rw [nearestMagnitude_eq]
  generalize divRoundEven (num * stepsOfOne) (den * 2 ^ targetBinade num den) = m at *
  generalize targetBinade num den = b at *
  have b_le : b ≤ topBinade := by
    apply Nat.le_of_not_lt
    intro beyond
    obtain ⟨-, -, -, -, -, small', -⟩ := largestDecimal_bounds
    have large : 2 ^ 52 * 2 ^ b ≤ largestDecimal := by
      refine Nat.le_of_mul_le_mul_right (Nat.le_trans ?_ small) pos
      rw [Nat.mul_assoc, Nat.mul_comm (2 ^ b)]
      exact bottom (Nat.lt_of_le_of_lt (Nat.zero_le _) beyond)
    have twice : 2 * topUnit ≤ 2 ^ b := by
      rw [topUnit, Nat.mul_comm, ← Nat.pow_succ]
      exact Nat.pow_le_pow_right (by decide) beyond
    omega
  have m_le : m ≤ 2 ^ 53 := le_of_near above top
  have bound : infiniteMagnitude = 2047 * 2 ^ 52 := rfl
  rcases Nat.lt_or_eq_of_le b_le with low | rfl
  · unfold topBinade at low
    omega
  · have m_lt : m < 2 ^ 53 := by
      obtain ⟨-, -, -, -, -, -, gap⟩ := largestDecimal_bounds
      have near : 2 * (m * topUnit) ≤ 2 * largestDecimal + topUnit := by
        refine Nat.le_of_mul_le_mul_right ?_ pos
        calc 2 * (m * topUnit) * den
            = 2 * (m * (den * topUnit)) := by rw [Nat.mul_assoc, Nat.mul_assoc, Nat.mul_comm den]
          _ ≤ 2 * (num * stepsOfOne) + den * topUnit := above
          _ ≤ 2 * (largestDecimal * den) + den * topUnit :=
            Nat.add_le_add_right (Nat.mul_le_mul_left 2 small) _
          _ = (2 * largestDecimal + topUnit) * den := by
            rw [Nat.add_mul, Nat.mul_assoc, Nat.mul_comm den]
      apply Nat.lt_of_mul_lt_mul_right (a := topUnit)
      omega
    unfold topBinade
    omega

/-! ## There and back -/

/-- The decimal of seven digits is read as the nearest double, which is finite. -/
theorem exists_toBinary64 (negative : Bool) {c D : Nat} (c_low : 10 ^ 6 ≤ c) (c_high : c < 10 ^ 7)
    (small : c * decimalUnit D ≤ largestDecimal * partsOfStep) :
    ∃ num den, Decimal.toBinary64 negative ⟨c, D - 330⟩ = nearest negative num den ∧ 0 < den ∧
      num * partsOfStep = c * 10 ^ D * den ∧ nearestMagnitude num den < infiniteMagnitude := by
  have digits : digitCount c = 7 := (digitCount_eq_succ_iff (by omega) 6).2 ⟨c_low, c_high⟩
  have D_le := decade_le_of_le_largestDecimal c_low small
  have pos : 0 < 10 ^ (-((D : Int) - 330)).toNat := Nat.pow_pos (by decide)
  have value : c * 10 ^ ((D : Int) - 330).toNat * partsOfStep =
      c * 10 ^ D * 10 ^ (-((D : Int) - 330)).toNat := by
    rw [Nat.mul_assoc, Nat.mul_assoc, pow_mul_partsOfStep, ← Nat.pow_add]
    congr 2
    omega
  refine ⟨_, _, ?_, pos, value, nearestMagnitude_lt pos ?_⟩
  · rw [Decimal.toBinary64, Decimal.scale]
    simp only [digits]
    rw [if_neg (by omega), if_neg (by omega), if_neg (by omega), Nat.pow_eq, Nat.pow_eq]
  · refine Nat.le_of_mul_le_mul_right (Nat.le_trans (Nat.le_of_eq ?_)
      (Nat.le_trans (Nat.mul_le_mul_right (10 ^ (-((D : Int) - 330)).toNat) small)
        (Nat.le_of_eq ?_))) partsOfStep_pos
    · rw [Nat.mul_right_comm, value, decimalUnit, Nat.mul_right_comm, Nat.mul_assoc c,
        Nat.mul_comm (10 ^ D)]
    · rw [Nat.mul_right_comm]

theorem sevenDigits_congr {x w : Binary64} (same : w.steps = x.steps) :
    w.sevenDigits = x.sevenDigits := by
  rw [sevenDigits_eq_ite, sevenDigits_eq_ite, decade_eq, decade_eq, same]

/-- Where doubles are twenty times denser than decimals, the double nearest to a decimal is rounded
to that decimal. -/
theorem sevenDigits_of_dense {w : Binary64} {c D u : Nat} (c_low : 10 ^ 6 ≤ c) (c_high : c < 10 ^ 7)
    (fine : partsOfStep ≤ u) (dense : 20 * u < decimalUnit D)
    (above : 2 * (w.steps * partsOfStep) ≤ 2 * (c * decimalUnit D) + u)
    (below : 2 * (c * decimalUnit D) ≤ 2 * (w.steps * partsOfStep) + u) :
    0 < w.steps ∧ w.sevenDigits = ⟨c, D - 330⟩ := by
  have c_times : 10 ^ 6 * decimalUnit D ≤ c * decimalUnit D := Nat.mul_le_mul_right _ c_low
  have pos : 0 < w.steps := by
    apply Nat.pos_of_ne_zero
    intro zero
    rw [zero, Nat.zero_mul] at below
    omega
  refine ⟨pos, sevenDigits_eq_of_near pos c_low c_high (by omega) (by omega) fun _ => ⟨?_, ?_⟩⟩
  · apply Nat.pos_of_ne_zero
    intro zero
    have least := Nat.lt_of_le_of_lt (decimalUnit_mono (Nat.zero_le 6)) scale_bounds.2.2.2.2.1
    rw [zero] at dense
    omega
  · omega

/-- The decade in which doubles are no longer sparse and not yet dense: its least decimal is not
rounded down. -/
theorem sevenDigits_of_decade_seven {w : Binary64} {c : Nat} (c_low : 10 ^ 6 ≤ c)
    (c_high : c < 10 ^ 7)
    (above : 2 * (w.steps * partsOfStep) ≤ 2 * (c * decimalUnit 7) + partsOfStep)
    (below : 2 * (c * decimalUnit 7) ≤ 2 * (w.steps * partsOfStep) + partsOfStep) :
    0 < w.steps ∧ w.sevenDigits = ⟨c, (7 : Nat) - 330⟩ := by
  obtain ⟨-, -, -, -, -, coarse, -, least⟩ := scale_bounds
  have c_times : 10 ^ 6 * decimalUnit 7 ≤ c * decimalUnit 7 := Nat.mul_le_mul_right _ c_low
  have pos : 0 < w.steps := by
    apply Nat.pos_of_ne_zero
    intro zero
    rw [zero, Nat.zero_mul] at below
    omega
  refine ⟨pos, sevenDigits_eq_of_near pos c_low c_high (by omega) (by omega) fun under => ?_⟩
  -- The least decimal of the decade lies between 2024022.5 and 2024023 steps.
  rcases Nat.lt_or_ge w.steps 2024023 with less | more
  · have := Nat.mul_le_mul_right partsOfStep (Nat.le_of_lt_add_one less)
    omega
  · have := Nat.mul_le_mul_right partsOfStep more
    omega

/-- Where decimals are denser than doubles, rounding to a decimal and back changes nothing. -/
theorem steps_eq_of_sparse {x w : Binary64} {c D : Nat} (sparse : decimalUnit D < partsOfStep)
    (above : 2 * (c * decimalUnit D) ≤ 2 * (x.steps * partsOfStep) + decimalUnit D)
    (below : 2 * (x.steps * partsOfStep) ≤ 2 * (c * decimalUnit D) + decimalUnit D)
    (above' : 2 * (w.steps * partsOfStep) ≤ 2 * (c * decimalUnit D) + partsOfStep)
    (below' : 2 * (c * decimalUnit D) ≤ 2 * (w.steps * partsOfStep) + partsOfStep) :
    w.steps = x.steps := by
  refine Nat.le_antisymm ?_ ?_
  · refine Nat.le_of_lt_add_one (Nat.lt_of_mul_lt_mul_right (a := partsOfStep) ?_)
    rw [Nat.add_one_mul x.steps]
    omega
  · refine Nat.le_of_lt_add_one (Nat.lt_of_mul_lt_mul_right (a := partsOfStep) ?_)
    rw [Nat.add_one_mul w.steps]
    omega

/-- Reading the seven digits of a finite double gives a finite double of the same sign with the same
seven digits. -/
theorem sevenDigits_toBinary64 {x : Binary64} (finite : x.isFinite = true) (pos : 0 < x.steps)
    (negative : Bool) :
    (x.sevenDigits.toBinary64 negative).isNegative = negative ∧
      (x.sevenDigits.toBinary64 negative).isFinite = true ∧
      0 < (x.sevenDigits.toBinary64 negative).steps ∧
      (x.sevenDigits.toBinary64 negative).sevenDigits = x.sevenDigits := by
  obtain ⟨c, D, digits, c_low, c_high, above, below⟩ := exists_sevenDigits pos
  obtain ⟨num, den, nearest_eq, den_pos, value, inside⟩ := exists_toBinary64 negative c_low c_high
    (decimal_le_largestDecimal finite c_low c_high above)
  obtain ⟨b, above', below', normal⟩ := exists_near_decimal negative den_pos value inside
  have isFinite : (nearest negative num den).isFinite = true := by
    rw [Binary64.isFinite, magnitude_nearest]
    exact decide_eq_true inside
  rw [digits, nearest_eq]
  refine ⟨isNegative_nearest negative num den, isFinite, ?_⟩
  generalize nearest negative num den = w at above' below'
  by_cases dense : 20 * (2 ^ b * partsOfStep) < decimalUnit D
  · exact sevenDigits_of_dense c_low c_high (Nat.le_mul_of_pos_left _ (Nat.two_pow_pos b)) dense
      above' below'
  -- Normal doubles are dense, and so are all doubles from the decade 8 on.
  obtain rfl : b = 0 := by
    apply Nat.eq_zero_of_not_pos
    intro b_pos
    have c_times : c * decimalUnit D ≤ 10 ^ 7 * decimalUnit D :=
      Nat.mul_le_mul_right _ (Nat.le_of_lt c_high)
    have unit_pos := decimalUnit_pos D
    have := normal b_pos
    omega
  rw [Nat.pow_zero, Nat.one_mul] at above' below' dense
  obtain ⟨-, -, -, -, six, -, eight, -⟩ := scale_bounds
  have D_le : D ≤ 7 := by
    refine Nat.le_of_lt_add_one (Nat.lt_of_not_le fun above => dense ?_)
    exact Nat.lt_of_lt_of_le eight (decimalUnit_mono above)
  rcases Nat.lt_or_eq_of_le D_le with lower | rfl
  · have sparse : decimalUnit D < partsOfStep :=
      Nat.lt_of_le_of_lt (decimalUnit_mono (by omega)) six
    have same := steps_eq_of_sparse sparse above below above' below'
    rw [sevenDigits_congr same, digits, same]
    exact ⟨pos, rfl⟩
  · exact sevenDigits_of_decade_seven c_low c_high above' below'

end Binary64

end FormulaFusion
