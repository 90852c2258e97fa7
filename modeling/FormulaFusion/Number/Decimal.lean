import FormulaFusion.Number.Rounding
import FormulaFusion.Number.Binary64

/-!
# Doubles nearest to a decimal

`Binary64.nearest` rounds a fraction to the nearest double, a tie going to the even significand;
beyond the largest finite double it gives infinity.  `Decimal` is a coefficient times a power of
ten, and `Decimal.toBinary64` is its nearest double.
-/

namespace FormulaFusion

namespace Binary64

/-- The binade in which `num / den` is rounded. -/
def targetBinade (num den : Nat) : Nat := (num * Nat.pow 2 1074 / den).log2 - 52

/-- The magnitude nearest to `num / den`, never above that of infinity. -/
def nearestMagnitude (num den : Nat) : Nat :=
  let binade := targetBinade num den
  min (binade * Nat.pow 2 52 + divRoundEven (num * Nat.pow 2 1074) (den * Nat.pow 2 binade))
    infiniteMagnitude

/-- The double of the given sign nearest to `num / den`. -/
def nearest (negative : Bool) (num den : Nat) : Binary64 :=
  ofMagnitude negative (nearestMagnitude num den)

theorem nearestMagnitude_le (num den : Nat) : nearestMagnitude num den ≤ infiniteMagnitude :=
  Nat.min_le_right _ _

theorem isNegative_nearest (negative : Bool) (num den : Nat) :
    (nearest negative num den).isNegative = negative :=
  isNegative_ofMagnitude _ _ (Nat.lt_of_le_of_lt (nearestMagnitude_le num den) (by decide))

theorem magnitude_nearest (negative : Bool) (num den : Nat) :
    (nearest negative num den).magnitude = nearestMagnitude num den :=
  magnitude_ofMagnitude _ _ (Nat.lt_of_le_of_lt (nearestMagnitude_le num den) (by decide))

end Binary64

/-- The decimal fraction `coefficient * 10 ^ exponent`. -/
structure Decimal where
  coefficient : Nat
  exponent : Int
  deriving DecidableEq, Repr

namespace Decimal

/-- The power of ten just above the decimal. -/
def scale (d : Decimal) : Int := digitCount d.coefficient + d.exponent

/-- The nearest double of the given sign.  A decimal of at least `10 ^ 310` is infinite and one
below `10 ^ (-330)` is zero, so no power of ten beyond these is ever computed. -/
def toBinary64 (negative : Bool) (d : Decimal) : Binary64 :=
  if d.coefficient = 0 then .zero negative
  else if 310 < d.scale then .infinity negative
  else if d.scale < -330 then .zero negative
  else
    .nearest negative (d.coefficient * Nat.pow 10 d.exponent.toNat)
      (Nat.pow 10 (-d.exponent).toNat)

end Decimal

end FormulaFusion
