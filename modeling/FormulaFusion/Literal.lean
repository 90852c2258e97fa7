import FormulaFusion.Number.Scientific

/-!
# Scalar literals

A `Literal` is a scalar value that can be written into a formula: nothing, a truth value, a 64-bit
integer, a double or a string.  `Literal.text` is its spelling; strings are written as they are.
-/

namespace FormulaFusion

/-- A scalar value. -/
inductive Literal where
  | none
  | bool (value : Bool)
  | int (value : Int64)
  | float (value : Binary64)
  | string (value : String)
  deriving DecidableEq, Repr

namespace Literal

/-- The decimal spelling of an integer. -/
def integerText (n : Int) : List Char :=
  if n < 0 then '-' :: Nat.toDigits 10 n.natAbs else Nat.toDigits 10 n.natAbs

/-- The spelling of a literal. -/
def text : Literal → List Char
  | none => "None".toList
  | bool true => "True".toList
  | bool false => "False".toList
  | int value => integerText value.toInt
  | float value => value.scientific
  | string value => value.toList

/-- Equality of values: doubles are compared as numbers. -/
def same : Literal → Literal → Bool
  | none, none => true
  | bool a, bool b => a == b
  | int a, int b => a == b
  | float a, float b => a.numEq b
  | string a, string b => a == b
  | _, _ => false

end Literal

end FormulaFusion
