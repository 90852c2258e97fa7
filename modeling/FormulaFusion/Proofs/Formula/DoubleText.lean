import FormulaFusion.Proofs.Formula.RoundTrip
import FormulaFusion.Proofs.Number.Nearest

/-!
# The text of a double

A `ScientificText` is a text `[-]d.dddddde±XX[X]`, and its value is the decimal number that it spells.
A finite double is written as such a text, whose value is that of the double rounded to seven digits, and
read back as the double nearest to that; the two doubles have the same text.  The infinities and NaN are
read back as they are.  All of this is `Binary64.parse_scientific`.
-/

namespace FormulaFusion

/-! ## Digits -/

namespace Numeral

theorem ofDigitChars_cons_zero (c : Char) (chars : List Char) :
    Nat.ofDigitChars 10 (c :: chars) 0 =
      10 ^ chars.length * (c.toNat - '0'.toNat) + Nat.ofDigitChars 10 chars 0 := by
  rw [Nat.ofDigitChars_cons, Nat.ofDigitChars_eq_ofDigitChars_zero, Nat.mul_zero, Nat.zero_add]

theorem digit_bounds {c : Char} (digit : c.isDigit = true) :
    '0'.toNat ≤ c.toNat ∧ c.toNat - '0'.toNat < 10 := by
  simp only [Char.isDigit, Bool.and_eq_true, decide_eq_true_eq, ge_iff_le, UInt32.le_iff_toNat_le]
    at digit
  obtain ⟨low, high⟩ := digit
  change '0'.toNat ≤ c.toNat at low
  change c.toNat ≤ 57 at high
  exact ⟨low, by change c.toNat - 48 < 10; omega⟩

theorem ofDigitChars_lt {chars : List Char} (digits : ∀ c ∈ chars, c.isDigit = true) :
    Nat.ofDigitChars 10 chars 0 < 10 ^ chars.length := by
  induction chars with
  | nil => exact Nat.one_pos
  | cons c chars ih =>
    have rest := ih fun d mem => digits d (List.mem_cons_of_mem _ mem)
    have most := Nat.mul_le_mul_left (10 ^ chars.length)
      (Nat.le_of_lt_succ (digit_bounds (digits c List.mem_cons_self)).2)
    rw [ofDigitChars_cons_zero, List.length_cons, Nat.pow_succ]
    omega

/-- The first of some digits is a zero if the number is less than what one digit fewer can spell. -/
theorem eq_zero_iff_ofDigitChars_lt {c : Char} {chars : List Char}
    (digits : ∀ d ∈ c :: chars, d.isDigit = true) :
    c = '0' ↔ Nat.ofDigitChars 10 (c :: chars) 0 < 10 ^ chars.length := by
  have rest := ofDigitChars_lt fun d mem => digits d (List.mem_cons_of_mem _ mem)
  rw [ofDigitChars_cons_zero]
  constructor
  · rintro rfl
    rwa [Nat.sub_self, Nat.mul_zero, Nat.zero_add]
  · intro less
    have low := (digit_bounds (digits c List.mem_cons_self)).1
    have none : c.toNat - '0'.toNat = 0 := by
      apply Nat.eq_zero_of_not_pos
      intro pos
      have := Nat.le_mul_of_pos_right (10 ^ chars.length) pos
      omega
    exact Char.toNat_inj.1 (by omega)

/-- An exponent has two digits, or three if the first one is not a zero. -/
theorem length_padded_two {n : Nat} (small : n < 10 ^ 3) : (Decimal.padded 2 n).length = 2 ∨
    (Decimal.padded 2 n).length = 3 ∧ (Decimal.padded 2 n).head? ≠ some '0' := by
  rcases Nat.lt_or_ge n (10 ^ 2) with two | three
  · exact .inl (length_padded (by decide) two)
  · right
    have count : digitCount n = 3 := (digitCount_eq_succ_iff (by omega) 2).2 ⟨three, small⟩
    have length : (Decimal.padded 2 n).length = 3 := by
      unfold digitCount at count
      simp [Decimal.padded, count]
    refine ⟨length, ?_⟩
    have value := ofDigitChars_padded 2 n
    have digits : ∀ c ∈ Decimal.padded 2 n, c.isDigit = true := fun c => isDigit_of_mem_padded
    cases spelled : Decimal.padded 2 n with
    | nil => simp
    | cons first rest =>
      rw [spelled] at value digits length
      rw [List.length_cons] at length
      rw [List.head?_cons, Ne, Option.some_inj, eq_zero_iff_ofDigitChars_lt digits, value,
        show rest.length = 2 by omega]
      omega

end Numeral

/-! ## Scientific texts -/

/-- A text `[-]d.dddddde±XX[X]`.  The exponent is filled up to two digits and no further, and that of
zero has a plus. -/
structure ScientificText where
  negative : Bool
  first : Char
  fraction : List Char
  below : Bool
  exponent : List Char
  isDigit_coefficient : ∀ c ∈ first :: fraction, c.isDigit = true
  isDigit_exponent : ∀ c ∈ exponent, c.isDigit = true
  length_fraction : fraction.length = 6
  length_exponent : exponent.length = 2 ∨ exponent.length = 3 ∧ exponent.head? ≠ some '0'
  exponent_ne_zero : below = true → Nat.ofDigitChars 10 exponent 0 ≠ 0

namespace ScientificText

def chars (t : ScientificText) : List Char :=
  (if t.negative then ['-'] else []) ++
    (t.first :: '.' :: t.fraction ++ 'e' :: (if t.below then '-' else '+') :: t.exponent)

/-- The power of ten that is written after the `e`. -/
def power (t : ScientificText) : ℤ :=
  if t.below then -(Nat.ofDigitChars 10 t.exponent 0 : ℤ) else Nat.ofDigitChars 10 t.exponent 0

/-- The number that is written, where the last of the seven digits counts `10 ^ (power - 6)`. -/
def value (t : ScientificText) : ℚ :=
  signed t.negative (Nat.ofDigitChars 10 (t.first :: t.fraction) 0 * 10 ^ (t.power - 6))

/-- A decimal of at most seven digits is written as a scientific text of the same value. -/
theorem exists_chars_eq {d : Decimal} (fits : d.coefficient < 10 ^ 7)
    (small : (d.exponent + 6).natAbs < 10 ^ 3) (negative : Bool) :
    ∃ t : ScientificText, (if negative then ['-'] else []) ++ d.scientific = t.chars ∧
      t.negative = negative ∧ (t.first = '0' ↔ d.coefficient < 10 ^ 6) ∧
      t.value = signed negative d.value := by
  obtain ⟨first, fraction, spelled, length, text⟩ := Numeral.exists_scientific_eq fits
  have digits : ∀ c ∈ first :: fraction, c.isDigit = true := by
    rw [← spelled]
    exact fun c => Numeral.isDigit_of_mem_padded
  have coefficient : Nat.ofDigitChars 10 (first :: fraction) 0 = d.coefficient := by
    rw [← spelled, Numeral.ofDigitChars_padded]
  have exponent := Numeral.ofDigitChars_padded 2 (d.exponent + 6).natAbs
  let t : ScientificText :=
    { negative, first, fraction
      below := decide (d.exponent + 6 < 0)
      exponent := Decimal.padded 2 (d.exponent + 6).natAbs
      isDigit_coefficient := digits
      isDigit_exponent := fun c => Numeral.isDigit_of_mem_padded
      length_fraction := length
      length_exponent := Numeral.length_padded_two small
      exponent_ne_zero := by
        rw [exponent, decide_eq_true_eq]
        omega }
  have power : t.power - 6 = d.exponent := by
    simp only [power, t, exponent, decide_eq_true_eq]
    split_ifs with below
    · omega
    · omega
  refine ⟨t, ?_, rfl, ?_, ?_⟩
  · rw [text]
    simp only [chars, t, decide_eq_true_eq]
  · rw [Numeral.eq_zero_iff_ofDigitChars_lt digits, coefficient, length]
  · rw [value, power, Decimal.value, ← coefficient]

end ScientificText

/-! ## Finite doubles -/

namespace Binary64

theorem value_eq_zero_iff (x : Binary64) : x.value = 0 ↔ x.magnitude = 0 := by
  rw [value_eq, signed_eq_zero_iff, div_eq_zero_iff, or_iff_left cast_stepsOfOne_pos.ne',
    Nat.cast_eq_zero]
  constructor
  · intro none
    by_contra nonzero
    exact (steps_pos nonzero).ne' none
  · intro zero
    by_contra nonzero
    exact magnitude_ne_zero_of_steps (Nat.pos_of_ne_zero nonzero) zero

theorem isNearest_value (w : Binary64) : w.IsNearest w.value := by
  intro y _
  rw [sub_self, abs_zero, abs_eq_zero, sub_eq_zero]
  exact ⟨abs_nonneg _, .inl⟩

theorem exists_spelled {x : Binary64} (finite : x.isFinite = true) (nonzero : x.magnitude ≠ 0) :
    ∃ c D : Nat, x.spelled = ⟨c, D - 330⟩ ∧ 10 ^ 6 ≤ c ∧ c < 10 ^ 7 ∧
      c * decimalUnit D ≤ largestDecimal * partsOfStep := by
  obtain ⟨c, D, digits, low, high, near, -⟩ := exists_sevenDigits (steps_pos nonzero)
  rw [spelled, if_neg nonzero, digits]
  exact ⟨c, D, rfl, low, high, decimal_le_largestDecimal finite low high near⟩

theorem value_spelled_of_zero {x : Binary64} (zero : x.magnitude = 0) : x.spelled.value = 0 := by
  rw [spelled, if_pos zero, Decimal.value, Nat.cast_zero, zero_mul]

theorem coefficient_spelled_lt_iff {x : Binary64} (finite : x.isFinite = true) :
    x.spelled.coefficient < 10 ^ 6 ↔ x.magnitude = 0 := by
  by_cases zero : x.magnitude = 0
  · rw [spelled, if_pos zero]
    exact iff_of_true (by decide) zero
  · obtain ⟨c, D, digits, low, -⟩ := exists_spelled finite zero
    rw [digits]
    exact iff_of_false (Nat.not_lt.2 low) zero

theorem exponent_spelled_lt {x : Binary64} (finite : x.isFinite = true) :
    (x.spelled.exponent + 6).natAbs < 10 ^ 3 := by
  by_cases zero : x.magnitude = 0
  · rw [spelled, if_pos zero]
    decide
  · obtain ⟨c, D, digits, low, -, small⟩ := exists_spelled finite zero
    have bound := decade_le_of_le_largestDecimal low small
    have exponent : x.spelled.exponent = D - 330 := by rw [digits]
    omega

/-- A double is spelled with its value rounded to seven digits. -/
theorem isSevenDigits_spelled (x : Binary64) :
    IsSevenDigits x.value (signed x.isNegative x.spelled.value) := by
  rw [value_eq]
  refine IsSevenDigits.signed ?_ _
  by_cases zero : x.magnitude = 0
  · left
    have none : x.steps = 0 := by simp [steps, significand, zero]
    exact ⟨by rw [none, Nat.cast_zero, zero_div], value_spelled_of_zero zero⟩
  · rw [spelled, if_neg zero]
    exact isSevenDigits_value_sevenDigits (steps_pos zero)

/-- The double that is read back is the one nearest to the decimal that was spelled. -/
theorem isNearest_reread {x : Binary64} (finite : x.isFinite = true) :
    x.reread.IsNearest (signed x.isNegative x.spelled.value) := by
  by_cases zero : x.magnitude = 0
  · have none := (value_eq_zero_iff _).2 ((spelled_reread finite).2.2.1.2 zero)
    have spelled_eq : signed x.isNegative x.spelled.value = x.reread.value := by
      rw [none, signed_eq_zero_iff, value_spelled_of_zero zero]
    rw [spelled_eq]
    exact isNearest_value _
  · obtain ⟨c, D, digits, low, high, small⟩ := exists_spelled finite zero
    obtain ⟨num, den, nearest_eq, pos, fraction, inside⟩ :=
      exists_toBinary64 x.isNegative low high small
    have spelled_value : x.spelled.value = c * 10 ^ ((D : ℤ) - 330) := by rw [digits, Decimal.value]
    have quotient : (num / den : ℚ) = x.spelled.value := by
      have den_pos : (0 : ℚ) < den := by exact_mod_cast pos
      have fraction' : (num * partsOfStep : ℚ) = c * 10 ^ D * den := by exact_mod_cast fraction
      rw [spelled_value, div_eq_iff den_pos.ne', ← mul_left_inj' cast_partsOfStep_pos.ne', fraction',
        mul_right_comm _ (den : ℚ), mul_assoc (c : ℚ) _ (partsOfStep : ℚ), zpow_mul_partsOfStep]
    rw [reread_of_isFinite finite, ← quotient, digits, nearest_eq]
    exact isNearest_nearest _ pos inside

/-! ## Texts that are read back -/

/-- A finite double is written in scientific notation with its value rounded to seven digits, and read
back from the text as the nearest double, which has the same sign and the same text.  Infinities and
NaN are read back from their texts. -/
theorem parse_scientific (x : Binary64) :
    (x.isFinite = true → ∃ (t : ScientificText) (w : Binary64),
      (x.scientific = t.chars ∧ t.negative = x.isNegative ∧ (t.first ≠ '0' ↔ x.value ≠ 0) ∧
        IsSevenDigits x.value t.value) ∧
      Formula.parse (String.ofList x.scientific) = .ok (.literal (.float w)) ∧
      w.isFinite = true ∧ w.isNegative = x.isNegative ∧ (w.value = 0 ↔ x.value = 0) ∧
      w.scientific = x.scientific ∧ w.IsNearest t.value) ∧
    (x.isInfinite = true → Formula.parse (String.ofList x.scientific) =
      .ok (.literal (.float (infinity x.isNegative)))) ∧
    (x.isNaN = true → Formula.parse (String.ofList x.scientific) = .ok (.literal (.float nan))) := by
  have read : Formula.parse (String.ofList x.scientific) = .ok (.literal (.float x.reread)) :=
    Formula.parse_text_literal (l := .float x) nofun
  rw [read]
  refine ⟨fun finite => ?_, fun infinite => by rw [reread_of_isInfinite infinite],
    fun isNaN => by rw [reread_of_isNaN isNaN]⟩
  obtain ⟨t, text, sign, first, value⟩ := ScientificText.exists_chars_eq x.coefficient_spelled_lt
    (exponent_spelled_lt finite) x.isNegative
  obtain ⟨finite', sign', zero, -⟩ := spelled_reread finite
  refine ⟨t, x.reread, ⟨?_, sign, ?_, ?_⟩, rfl, finite', sign', ?_, x.scientific_reread, ?_⟩
  · rw [scientific_eq_of_isFinite finite, text]
  · rw [not_iff_not, first, coefficient_spelled_lt_iff finite, value_eq_zero_iff]
  · rw [value]
    exact x.isSevenDigits_spelled
  · rw [value_eq_zero_iff, value_eq_zero_iff, zero]
  · rw [value]
    exact isNearest_reread finite

/-- The double 9999999.5 lies half way between two decimals of seven digits, and the even one belongs to
the next decade. -/
theorem parse_scientific_tie :
    (∃ (t : ScientificText) (w : Binary64), t.chars = "1.000000e+07".toList ∧
      IsSevenDigits (Binary64.value ⟨0x416312cff0000000⟩) t.value ∧
      Formula.parse "1.000000e+07" = .ok (.literal (.float w)) ∧ w.IsNearest t.value) ∧
    Formula.parse "-inf" = .ok (.literal (.float (infinity true))) ∧
    Formula.parse "nan" = .ok (.literal (.float nan)) := by
  have text : scientific ⟨0x416312cff0000000⟩ = "1.000000e+07".toList := by decide +kernel
  refine ⟨?_, (parse_scientific (infinity true)).2.1 (by decide),
    (parse_scientific nan).2.2 (by decide)⟩
  obtain ⟨t, w, ⟨written, -, -, rounded⟩, read, -, -, -, -, near⟩ :=
    (parse_scientific ⟨0x416312cff0000000⟩).1 (by decide)
  rw [text] at written read
  exact ⟨t, w, written.symm, rounded, read, near⟩

end Binary64

end FormulaFusion
