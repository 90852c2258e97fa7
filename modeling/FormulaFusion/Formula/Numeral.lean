import FormulaFusion.Number.Decimal

/-!
# Numerals

How numbers are read: `readNatural?` takes decimal digits only, `readInteger?` takes a sign and
digits within the range of 64-bit integers, and `readFloat?` takes a sign, digits with at most one
point among or around them, and an optional exponent.  `spanNumeral` finds the end of a numeral in a
longer text.
-/

namespace FormulaFusion

namespace Numeral

/-- Splits off a leading sign and tells whether it is a minus. -/
def splitSign : List Char → Bool × List Char
  | '-' :: rest => (true, rest)
  | '+' :: rest => (false, rest)
  | chars => (false, chars)

/-- The number written by at least one digit and nothing else. -/
def readNatural? (chars : List Char) : Option Nat :=
  if !chars.isEmpty && chars.all Char.isDigit then some (Nat.ofDigitChars 10 chars 0) else none

/-- The integer written by an optional sign and digits, whatever its size. -/
def readSigned? (chars : List Char) : Option Int :=
  let (negative, digits) := splitSign chars
  (readNatural? digits).map fun n => if negative then -(n : Int) else n

/-- The 64-bit integer written by an optional sign and digits. -/
def readInteger? (chars : List Char) : Option Int64 :=
  (readSigned? chars).bind fun n =>
    if -(Nat.pow 2 63 : Nat) ≤ n ∧ n < (Nat.pow 2 63 : Nat) then some (Int64.ofInt n) else none

/-- The number of a slot, written by digits alone: a 64-bit word. -/
def readSlot? (chars : List Char) : Option Nat :=
  (readNatural? chars).bind fun n => if n < Nat.pow 2 64 then some n else none

/-- The exponent of a decimal: absent, or a mark followed by a signed number. -/
def readExponent? : List Char → Option Int
  | [] => some 0
  | mark :: chars => if mark = 'e' ∨ mark = 'E' then readSigned? chars else none

/-- The digits after a point, if there is one, and what follows them. -/
def splitFraction : List Char → List Char × List Char
  | '.' :: chars => (chars.takeWhile Char.isDigit, chars.dropWhile Char.isDigit)
  | chars => ([], chars)

/-- The decimal without sign written by digits, a point and an exponent. -/
def readDecimal? (chars : List Char) : Option Decimal :=
  let whole := chars.takeWhile Char.isDigit
  let (fraction, rest) := splitFraction (chars.dropWhile Char.isDigit)
  (readNatural? (whole ++ fraction)).bind fun coefficient =>
    (readExponent? rest).map fun exponent => ⟨coefficient, exponent - fraction.length⟩

/-- The double nearest to a signed decimal. -/
def readFloat? (chars : List Char) : Option Binary64 :=
  let (negative, unsigned) := splitSign chars
  (readDecimal? unsigned).map (Decimal.toBinary64 negative)

/-- The longest run of digits, points, exponent marks, and signs right after an exponent mark (or at
once, if `signed`), with what follows it. -/
def spanNumeral (signed : Bool) : List Char → List Char × List Char
  | [] => ([], [])
  | c :: rest =>
    let mark := c == 'e' || c == 'E'
    if c.isDigit || c == '.' || mark || (signed && (c == '-' || c == '+')) then
      let (lexeme, after) := spanNumeral mark rest
      (c :: lexeme, after)
    else ([], c :: rest)

/-- Nothing is lost between a numeral and what follows it. -/
theorem spanNumeral_append (signed : Bool) (chars : List Char) :
    (spanNumeral signed chars).1 ++ (spanNumeral signed chars).2 = chars := by
  induction chars generalizing signed with
  | nil => rfl
  | cons c rest ih =>
    simp only [spanNumeral]
    split
    · simp [ih]
    · rfl

end Numeral

end FormulaFusion
