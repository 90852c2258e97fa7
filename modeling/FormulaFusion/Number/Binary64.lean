/-!
# Binary floating point numbers of 64 bits

A `Binary64` is the word of a double: one sign bit, eleven bits of exponent and 52 bits of fraction.
Every finite magnitude is a whole number of steps of `2 ^ (-1074)`, the least positive one, so
`steps` is the exact value of a double as a natural number.  Words stay apart even where the numbers
agree (`0` and `-0`); `numEq` is equality of numbers, by which no NaN equals anything.
-/

namespace FormulaFusion

/-- A double, given by its word. -/
structure Binary64 where
  bits : UInt64
  deriving DecidableEq, Repr, Inhabited

namespace Binary64

/-- The word without its sign bit. -/
def magnitude (x : Binary64) : Nat := x.bits.toNat % Nat.pow 2 63

/-- Whether the sign bit is set. -/
def isNegative (x : Binary64) : Bool := decide (Nat.pow 2 63 ≤ x.bits.toNat)

/-- The magnitude of the infinities; larger ones belong to NaNs. -/
def infiniteMagnitude : Nat := 2047 * Nat.pow 2 52

/-- The double with the given sign and magnitude. -/
def ofMagnitude (negative : Bool) (magnitude : Nat) : Binary64 :=
  ⟨UInt64.ofNat ((if negative then Nat.pow 2 63 else 0) + magnitude)⟩

/-- The zero of the given sign. -/
def zero (negative : Bool) : Binary64 := ofMagnitude negative 0

/-- The infinity of the given sign. -/
def infinity (negative : Bool) : Binary64 := ofMagnitude negative infiniteMagnitude

/-- The quiet NaN with an empty payload. -/
def nan : Binary64 := ofMagnitude false (infiniteMagnitude + Nat.pow 2 51)

def isNaN (x : Binary64) : Bool := decide (infiniteMagnitude < x.magnitude)

def isInfinite (x : Binary64) : Bool := decide (x.magnitude = infiniteMagnitude)

def isFinite (x : Binary64) : Bool := decide (x.magnitude < infiniteMagnitude)

/-- The binary exponent of a finite double, counted from that of the least positive one. -/
def binade (x : Binary64) : Nat := x.magnitude / Nat.pow 2 52 - 1

/-- The significand of a finite double: a whole number below `2 ^ 53`. -/
def significand (x : Binary64) : Nat := x.magnitude - x.binade * Nat.pow 2 52

/-- The absolute value of a finite double in steps of `2 ^ (-1074)`. -/
def steps (x : Binary64) : Nat := x.significand * Nat.pow 2 x.binade

/-- Equality of numbers: zeros of both signs agree, and a NaN equals nothing. -/
def numEq (x y : Binary64) : Bool :=
  !x.isNaN && !y.isNaN && (x == y || (x.magnitude == 0 && y.magnitude == 0))

theorem magnitude_ofMagnitude (negative : Bool) (m : Nat) (small : m < Nat.pow 2 63) :
    (ofMagnitude negative m).magnitude = m := by
  rw [Nat.pow_eq] at small
  simp only [ofMagnitude, magnitude, UInt64.toNat_ofNat', Nat.pow_eq]
  cases negative <;> simp <;> omega

theorem isNegative_ofMagnitude (negative : Bool) (m : Nat) (small : m < Nat.pow 2 63) :
    (ofMagnitude negative m).isNegative = negative := by
  rw [Nat.pow_eq] at small
  simp only [ofMagnitude, isNegative, UInt64.toNat_ofNat', Nat.pow_eq]
  cases negative <;> simp <;> omega

end Binary64

end FormulaFusion
