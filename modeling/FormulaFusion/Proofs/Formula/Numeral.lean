import FormulaFusion.Formula.Numeral
import FormulaFusion.Literal
import FormulaFusion.Proofs.Number.SevenDigits

/-!
# Reading numbers back

Integers and slot numbers are read back from their spelling as they were.  A finite double is spelled
with seven digits only; what is read back from them is `Binary64.reread`, which has the same spelling
(`Binary64.scientific_reread`).
-/

namespace FormulaFusion

namespace Numeral

/-! ## Digits -/

theorem readNatural?_of_digits {chars : List Char} (nonempty : chars ≠ [])
    (digits : ∀ c ∈ chars, c.isDigit = true) :
    readNatural? chars = some (Nat.ofDigitChars 10 chars 0) := by
  have fine : (!chars.isEmpty && chars.all Char.isDigit) = true := by
    simpa [nonempty] using digits
  rw [readNatural?, if_pos fine]

theorem isDigit_of_mem_toDigits {n : Nat} {c : Char} (mem : c ∈ Nat.toDigits 10 n) :
    c.isDigit = true :=
  Nat.isDigit_of_mem_toDigits (by decide) (by decide) mem

theorem readNatural?_toDigits (n : Nat) : readNatural? (Nat.toDigits 10 n) = some n := by
  rw [readNatural?_of_digits Nat.toDigits_ne_nil fun _ => isDigit_of_mem_toDigits,
    Nat.ofDigitChars_ten_toDigits]

theorem isDigit_of_mem_padded {width n : Nat} {c : Char} (mem : c ∈ Decimal.padded width n) :
    c.isDigit = true := by
  rcases List.mem_append.1 mem with zero | digit
  · rw [(List.mem_replicate.1 zero).2]
    rfl
  · exact isDigit_of_mem_toDigits digit

theorem ofDigitChars_padded (width n : Nat) :
    Nat.ofDigitChars 10 (Decimal.padded width n) 0 = n := by
  rw [Decimal.padded, Nat.ofDigitChars_append, Nat.ofDigitChars_replicate_zero, Nat.mul_zero,
    Nat.ofDigitChars_ten_toDigits]

theorem readNatural?_padded (width n : Nat) : readNatural? (Decimal.padded width n) = some n := by
  rw [readNatural?_of_digits (by simp [Decimal.padded, Nat.toDigits_ne_nil])
    fun _ => isDigit_of_mem_padded, ofDigitChars_padded]

theorem length_padded {width n : Nat} (pos : 0 < width) (fits : n < 10 ^ width) :
    (Decimal.padded width n).length = width := by
  have := (digitCount_le_iff n width pos).2 fits
  unfold digitCount at this
  simp only [Decimal.padded, List.length_append, List.length_replicate]
  omega

theorem splitSign_minus (rest : List Char) : splitSign ('-' :: rest) = (true, rest) := rfl

theorem splitSign_plus (rest : List Char) : splitSign ('+' :: rest) = (false, rest) := rfl

/-- Digits are no signs. -/
theorem splitSign_cons_of_isDigit {c : Char} (digit : c.isDigit = true) (rest : List Char) :
    splitSign (c :: rest) = (false, c :: rest) := by
  unfold splitSign
  split
  · next eq => cases eq; cases digit
  · next eq => cases eq; cases digit
  · rfl

theorem splitSign_toDigits (n : Nat) :
    splitSign (Nat.toDigits 10 n) = (false, Nat.toDigits 10 n) := by
  obtain ⟨c, rest, digits⟩ := List.exists_cons_of_ne_nil (Nat.toDigits_ne_nil (n := n) (b := 10))
  rw [digits]
  refine splitSign_cons_of_isDigit (isDigit_of_mem_toDigits (n := n) ?_) rest
  rw [digits]
  exact List.mem_cons_self

theorem readSigned?_of_splitSign {chars digits : List Char} {negative : Bool} {n : Nat}
    (split : splitSign chars = (negative, digits)) (read : readNatural? digits = some n) :
    readSigned? chars = some (if negative then -(n : Int) else n) := by
  rw [readSigned?, split]
  simp only [read]
  rfl

/-! ## Integers and slots -/

theorem readSigned?_integerText (n : Int) : readSigned? (Literal.integerText n) = some n := by
  have size := readNatural?_toDigits n.natAbs
  unfold Literal.integerText
  by_cases negative : n < 0
  · rw [if_pos negative, readSigned?_of_splitSign (splitSign_minus _) size, if_pos rfl,
      Option.some_inj]
    omega
  · rw [if_neg negative, readSigned?_of_splitSign (splitSign_toDigits _) size,
      if_neg Bool.false_ne_true, Option.some_inj]
    omega

theorem readInteger?_integerText (value : Int64) :
    readInteger? (Literal.integerText value.toInt) = some value := by
  have low := value.le_toInt
  have high := value.toInt_lt
  rw [readInteger?, readSigned?_integerText, Option.bind_some, if_pos ⟨low, high⟩,
    Int64.ofInt_toInt]

theorem readSlot?_toDigits {n : Nat} (fits : n < 2 ^ 64) :
    readSlot? (Nat.toDigits 10 n) = some n := by
  rw [readSlot?, readNatural?_toDigits, Option.bind_some, Nat.pow_eq, if_pos fits]

/-! ## Decimals -/

theorem readExponent?_padded (n : Int) :
    readExponent? ('e' :: (if n < 0 then '-' else '+') :: Decimal.padded 2 n.natAbs) = some n := by
  have size := readNatural?_padded 2 n.natAbs
  rw [readExponent?, if_pos (.inl rfl)]
  by_cases negative : n < 0
  · rw [if_pos negative, readSigned?_of_splitSign (splitSign_minus _) size, if_pos rfl,
      Option.some_inj]
    omega
  · rw [if_neg negative, readSigned?_of_splitSign (splitSign_plus _) size,
      if_neg Bool.false_ne_true, Option.some_inj]
    omega

/-- The scientific text of a decimal of at most seven digits: one digit, a point, six digits, and an
exponent. -/
theorem exists_scientific_eq {d : Decimal} (fits : d.coefficient < 10 ^ 7) :
    ∃ first fraction, Decimal.padded 7 d.coefficient = first :: fraction ∧ fraction.length = 6 ∧
      d.scientific = first :: '.' :: fraction ++ 'e' :: (if d.exponent + 6 < 0 then '-' else '+') ::
        Decimal.padded 2 (d.exponent + 6).natAbs := by
  have length := length_padded (by decide) fits
  unfold Decimal.scientific
  cases digits : Decimal.padded 7 d.coefficient with
  | nil => simp [digits] at length
  | cons first fraction =>
    refine ⟨first, fraction, rfl, ?_, rfl⟩
    simpa [digits] using length

theorem readDecimal?_of_digits {first : Char} {fraction tail : List Char} {coefficient : Nat}
    {exponent : Int} (digits : ∀ c ∈ first :: fraction, c.isDigit = true)
    (read : readNatural? (first :: fraction) = some coefficient)
    (read_exponent : readExponent? ('e' :: tail) = some exponent) :
    readDecimal? (first :: '.' :: fraction ++ 'e' :: tail) =
      some ⟨coefficient, exponent - fraction.length⟩ := by
  have first_digit := digits first List.mem_cons_self
  have fraction_digits : ∀ c ∈ fraction, c.isDigit = true :=
    fun c mem => digits c (List.mem_cons_of_mem _ mem)
  have point : Char.isDigit '.' = false := rfl
  have mark : Char.isDigit 'e' = false := rfl
  have split : splitFraction ('.' :: (fraction ++ 'e' :: tail)) = (fraction, 'e' :: tail) := by
    rw [splitFraction, List.takeWhile_append_of_pos fraction_digits,
      List.dropWhile_append_of_pos fraction_digits]
    simp [mark]
  rw [readDecimal?]
  simp [first_digit, point, split, read, read_exponent]

/-- A decimal of at most seven digits is read back from its scientific text. -/
theorem readDecimal?_scientific {d : Decimal} (fits : d.coefficient < 10 ^ 7) :
    readDecimal? d.scientific = some d := by
  obtain ⟨first, fraction, digits, length, text⟩ := exists_scientific_eq fits
  have coefficient := readNatural?_padded 7 d.coefficient
  rw [digits] at coefficient
  have isDigit : ∀ c ∈ first :: fraction, c.isDigit = true := by
    rw [← digits]
    exact fun c => isDigit_of_mem_padded
  rw [text, readDecimal?_of_digits isDigit coefficient (readExponent?_padded _), length]
  cases d
  simp only [Option.some_inj, Decimal.mk.injEq, true_and]
  omega

/-- The signed decimal is read as the nearest double of that sign. -/
theorem readFloat?_scientific {d : Decimal} (fits : d.coefficient < 10 ^ 7) (negative : Bool) :
    readFloat? ((if negative then ['-'] else []) ++ d.scientific) =
      some (d.toBinary64 negative) := by
  obtain ⟨first, fraction, digits, -, text⟩ := exists_scientific_eq fits
  have first_digit : first.isDigit = true := by
    have mem : first ∈ Decimal.padded 7 d.coefficient := by
      rw [digits]
      exact List.mem_cons_self
    exact isDigit_of_mem_padded mem
  have split : splitSign ((if negative then ['-'] else []) ++ d.scientific) =
      (negative, d.scientific) := by
    cases negative with
    | true => exact splitSign_minus _
    | false =>
      rw [if_neg Bool.false_ne_true, List.nil_append, text]
      exact splitSign_cons_of_isDigit first_digit _
  rw [readFloat?, split]
  simp only [readDecimal?_scientific fits, Option.map_some]

end Numeral

/-! ## Doubles read back -/

namespace Binary64

/-- The decimal that is spelled for a finite double. -/
def spelled (x : Binary64) : Decimal := if x.magnitude = 0 then ⟨0, -6⟩ else x.sevenDigits

/-- The double that is read from the scientific text of `x`. -/
def reread (x : Binary64) : Binary64 :=
  if x.isNaN then nan
  else if x.isInfinite then infinity x.isNegative
  else x.spelled.toBinary64 x.isNegative

theorem isNaN_and_isInfinite_of_isFinite {x : Binary64} (finite : x.isFinite = true) :
    x.isNaN = false ∧ x.isInfinite = false := by
  have bound : x.magnitude < infiniteMagnitude := of_decide_eq_true finite
  exact ⟨decide_eq_false (by omega), decide_eq_false (by omega)⟩

theorem scientific_eq_of_isFinite {x : Binary64} (finite : x.isFinite = true) :
    x.scientific = (if x.isNegative then ['-'] else []) ++ x.spelled.scientific := by
  obtain ⟨notNaN, notInfinite⟩ := isNaN_and_isInfinite_of_isFinite finite
  rw [scientific, notNaN, notInfinite, spelled]
  by_cases zero : x.magnitude = 0
  · simp [zero]
  · simp [zero]

theorem steps_pos {x : Binary64} (nonzero : x.magnitude ≠ 0) : 0 < x.steps := by
  refine Nat.mul_pos ?_ (Nat.two_pow_pos _)
  simp only [significand, binade, Nat.pow_eq]
  omega

theorem magnitude_ne_zero_of_steps {x : Binary64} (pos : 0 < x.steps) : x.magnitude ≠ 0 := by
  intro zero
  simp [steps, significand, zero] at pos

theorem coefficient_spelled_lt (x : Binary64) : x.spelled.coefficient < 10 ^ 7 := by
  unfold spelled
  split
  · decide
  · next nonzero =>
    obtain ⟨c, D, digits, -, high, -⟩ := exists_sevenDigits (steps_pos nonzero)
    rw [digits]
    exact high

theorem reread_of_isFinite {x : Binary64} (finite : x.isFinite = true) :
    x.reread = x.spelled.toBinary64 x.isNegative := by
  obtain ⟨notNaN, notInfinite⟩ := isNaN_and_isInfinite_of_isFinite finite
  simp [reread, notNaN, notInfinite]

theorem reread_of_isInfinite {x : Binary64} (infinite : x.isInfinite = true) :
    x.reread = infinity x.isNegative := by
  have magnitude : x.magnitude = infiniteMagnitude := of_decide_eq_true infinite
  have notNaN : x.isNaN = false := decide_eq_false (by omega)
  simp [reread, notNaN, infinite]

theorem reread_of_isNaN {x : Binary64} (isNaN : x.isNaN = true) : x.reread = nan := if_pos isNaN

/-- What is read back from the text of a finite double is finite, has the same sign and is spelled in
the same way. -/
theorem spelled_reread {x : Binary64} (finite : x.isFinite = true) :
    x.reread.isFinite = true ∧ x.reread.isNegative = x.isNegative ∧
      (x.reread.magnitude = 0 ↔ x.magnitude = 0) ∧ x.reread.spelled = x.spelled := by
  rw [reread_of_isFinite finite]
  by_cases zero : x.magnitude = 0
  · have spelled_eq : x.spelled = ⟨0, -6⟩ := if_pos zero
    have read : x.spelled.toBinary64 x.isNegative = Binary64.zero x.isNegative := by
      rw [spelled_eq]
      rfl
    have small : 0 < 2 ^ 63 := by decide
    have none : (Binary64.zero x.isNegative).magnitude = 0 := magnitude_ofMagnitude _ 0 small
    have sign : (Binary64.zero x.isNegative).isNegative = x.isNegative :=
      isNegative_ofMagnitude _ 0 small
    rw [read, isFinite, spelled, none, spelled_eq]
    exact ⟨rfl, sign, ⟨fun _ => zero, fun _ => rfl⟩, rfl⟩
  · have spelled_eq : x.spelled = x.sevenDigits := if_neg zero
    obtain ⟨sign, finite', pos, same⟩ :=
      sevenDigits_toBinary64 finite (steps_pos zero) x.isNegative
    have nonzero := magnitude_ne_zero_of_steps pos
    rw [spelled_eq]
    refine ⟨finite', sign, ⟨fun none => absurd none nonzero, fun none => absurd none zero⟩, ?_⟩
    rw [spelled, if_neg nonzero, same]

/-- A double and what is read back from its text have the same text. -/
theorem scientific_reread (x : Binary64) : x.reread.scientific = x.scientific := by
  by_cases isNaN : x.isNaN = true
  · rw [reread_of_isNaN isNaN, scientific, scientific, if_pos isNaN, if_pos (by decide)]
  by_cases infinite : x.isInfinite = true
  · have small : infiniteMagnitude < 2 ^ 63 := by decide
    have magnitude : (infinity x.isNegative).magnitude = infiniteMagnitude :=
      magnitude_ofMagnitude _ _ small
    have sign : (infinity x.isNegative).isNegative = x.isNegative :=
      isNegative_ofMagnitude _ _ small
    have notNaN : (infinity x.isNegative).isNaN = false := by simp [Binary64.isNaN, magnitude]
    have infinite' : (infinity x.isNegative).isInfinite = true := by simp [isInfinite, magnitude]
    rw [reread_of_isInfinite infinite]
    simp [scientific, isNaN, infinite, notNaN, infinite', sign]
  · have finite : x.isFinite = true := by
      simp only [Binary64.isNaN, isInfinite, decide_eq_true_eq] at isNaN infinite
      exact decide_eq_true (by omega)
    obtain ⟨finite', sign, -, same⟩ := spelled_reread finite
    rw [scientific_eq_of_isFinite finite', scientific_eq_of_isFinite finite, sign, same]

end Binary64

end FormulaFusion
