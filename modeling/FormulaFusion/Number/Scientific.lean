import FormulaFusion.Number.Decimal

/-!
# Scientific notation with seven digits

`Binary64.scientific` writes a double as `d.dddddde±XX`: the exact value rounded to seven
significant digits, an exact half going to the even digit, with an exponent of at least two
digits.  The values that have no such form are written `nan`, `inf` and `-inf`.
-/

namespace FormulaFusion

namespace Binary64

/-- The decimal exponent of a positive finite double, counted from `10 ^ (-324)`. -/
def decade (x : Binary64) : Nat := digitCount (x.steps * Nat.pow 10 324 / Nat.pow 2 1074) - 1

/-- A positive finite double rounded to seven significant digits: the coefficient has exactly seven
digits, also where rounding carries into the next decade. -/
def sevenDigits (x : Binary64) : Decimal :=
  let coefficient := divRoundEven (x.steps * Nat.pow 10 330) (Nat.pow 2 1074 * Nat.pow 10 x.decade)
  if coefficient = Nat.pow 10 7 then ⟨Nat.pow 10 6, x.decade - 329⟩
  else ⟨coefficient, x.decade - 330⟩

end Binary64

namespace Decimal

/-- The digits of a number, filled up with zeros on the left to the given width. -/
def padded (width n : Nat) : List Char :=
  let digits := Nat.toDigits 10 n
  List.replicate (width - digits.length) '0' ++ digits

/-- The text `d.dddddde±XX` of a decimal whose coefficient has at most seven digits. -/
def scientific (d : Decimal) : List Char :=
  let exponent := d.exponent + 6
  let digits := padded 7 d.coefficient
  digits.take 1 ++ '.' :: digits.drop 1 ++
    'e' :: (if exponent < 0 then '-' else '+') :: padded 2 exponent.natAbs

end Decimal

namespace Binary64

/-- The scientific text of a double. -/
def scientific (x : Binary64) : List Char :=
  if x.isNaN then ['n', 'a', 'n']
  else
    let sign := if x.isNegative then ['-'] else []
    if x.isInfinite then sign ++ ['i', 'n', 'f']
    else if x.magnitude = 0 then sign ++ Decimal.scientific ⟨0, -6⟩
    else sign ++ x.sevenDigits.scientific

end Binary64

end FormulaFusion
