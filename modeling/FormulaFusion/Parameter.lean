import FormulaFusion.Literal

/-!
# Parameters and attributes

Operators carry parameters (scalar literals, lists of scalars, or an unspecified tensor) and
attributes (raw constant tensors).  Only a literal can be written into a formula.
-/

namespace FormulaFusion

/-- The value of an operator parameter. -/
inductive Parameter where
  | literal (value : Literal)
  | ints (values : List Int64)
  | floats (values : List Binary64)
  | strings (values : List String)
  | tensor
  deriving DecidableEq, Repr

namespace Parameter

/-- The default parameter is the literal `None`. -/
instance : Inhabited Parameter := ⟨literal .none⟩

/-- The classes of parameter values; everything that is no literal is `other`. -/
inductive Category where
  | none
  | bool
  | int
  | float
  | string
  | other
  deriving DecidableEq, Repr

/-- The class of a parameter value. -/
def category : Parameter → Category
  | literal .none => .none
  | literal (.bool _) => .bool
  | literal (.int _) => .int
  | literal (.float _) => .float
  | literal (.string _) => .string
  | _ => .other

/-- The literal that a parameter holds. -/
def literal? : Parameter → Option Literal
  | literal value => some value
  | _ => none

/-- Whether a parameter holds a literal. -/
def isLiteral (p : Parameter) : Bool := p.literal?.isSome

/-- The text of a string parameter. -/
def string? : Parameter → Option String
  | literal (.string value) => some value
  | _ => none

/-- Equality of values: doubles are compared as numbers. -/
def same : Parameter → Parameter → Bool
  | literal a, literal b => a.same b
  | ints a, ints b => a == b
  | floats a, floats b => a.length == b.length && (a.zip b).all fun pair => pair.1.numEq pair.2
  | strings a, strings b => a == b
  | tensor, tensor => true
  | _, _ => false

theorem isLiteral_iff (p : Parameter) : p.isLiteral = true ↔ ∃ value, p = literal value := by
  cases p <;> simp [isLiteral, literal?]

end Parameter

/-- The element type of a constant tensor. -/
inductive ElementType where
  | f32
  | f64
  | f16
  | i64
  | i32
  | i8
  | u8
  | bool
  deriving DecidableEq, Repr

/-- A constant tensor attached to an operator: its element type, its shape and its bytes. -/
structure Attribute where
  element : ElementType
  shape : List Nat
  data : List UInt8
  deriving DecidableEq, Repr

end FormulaFusion
