/-!
# Operator kinds

A traced operator is known by its type name.  `Kind` is the closed set of kinds that fusion
understands, with `other` for every name it does not know; `Kind.ofTypeName` and `Kind.typeName` go
back and forth between the two.  The kind fixes how many inputs an operator takes (`Kind.arity`),
whether it can be written into a formula (`Kind.isInlinable`), and under which function name
(`Kind.functionName?`).
-/

namespace FormulaFusion

/-! ## Elementwise functions -/

/-- Elementwise functions of one argument. -/
inductive UnaryFunction where
  | abs
  | acos
  | acosh
  | asin
  | asinh
  | atan
  | atanh
  | ceil
  | cos
  | cosh
  | exp
  | floor
  | log
  | neg
  | reciprocal
  | rsqrt
  | sign
  | sin
  | sinh
  | sqrt
  | square
  | tan
  | tanh
  | trunc
  deriving DecidableEq, Repr

namespace UnaryFunction

def name : UnaryFunction → String
  | abs => "abs"
  | acos => "acos"
  | acosh => "acosh"
  | asin => "asin"
  | asinh => "asinh"
  | atan => "atan"
  | atanh => "atanh"
  | ceil => "ceil"
  | cos => "cos"
  | cosh => "cosh"
  | exp => "exp"
  | floor => "floor"
  | log => "log"
  | neg => "neg"
  | reciprocal => "reciprocal"
  | rsqrt => "rsqrt"
  | sign => "sign"
  | sin => "sin"
  | sinh => "sinh"
  | sqrt => "sqrt"
  | square => "square"
  | tan => "tan"
  | tanh => "tanh"
  | trunc => "trunc"

/-- All functions of one argument, in alphabetical order. -/
def all : List UnaryFunction :=
  [abs, acos, acosh, asin, asinh, atan, atanh, ceil, cos, cosh, exp, floor, log, neg, reciprocal,
    rsqrt, sign, sin, sinh, sqrt, square, tan, tanh, trunc]

theorem mem_all (f : UnaryFunction) : f ∈ all := by cases f <;> decide

end UnaryFunction

/-- Elementwise functions of two arguments. -/
inductive BinaryFunction where
  | atan2
  | div
  | floorDivide
  | mul
  | pow
  | remainder
  deriving DecidableEq, Repr

namespace BinaryFunction

def name : BinaryFunction → String
  | atan2 => "atan2"
  | div => "div"
  | floorDivide => "floor_divide"
  | mul => "mul"
  | pow => "pow"
  | remainder => "remainder"

/-- All functions of two arguments, in alphabetical order. -/
def all : List BinaryFunction := [atan2, div, floorDivide, mul, pow, remainder]

theorem mem_all (f : BinaryFunction) : f ∈ all := by cases f <;> decide

end BinaryFunction

/-- Elementwise connectives of two arguments. -/
inductive Connective where
  | and
  | or
  | xor
  deriving DecidableEq, Repr

namespace Connective

def name : Connective → String
  | and => "and"
  | or => "or"
  | xor => "xor"

/-- All connectives. -/
def all : List Connective := [and, or, xor]

theorem mem_all (c : Connective) : c ∈ all := by cases c <;> decide

end Connective

/-! ## Arities -/

/-- How many inputs a kind of operator takes. -/
inductive Arity where
  | exactly (count : Nat)
  | atLeast (count : Nat)
  | any
  deriving DecidableEq, Repr

namespace Arity

/-- Whether an operator may have this many inputs. -/
def accepts : Arity → Nat → Bool
  | exactly count, n => n == count
  | atLeast count, n => decide (count ≤ n)
  | any, _ => true

/-- The arity in words. -/
def text : Arity → String
  | exactly count => "exactly " ++ toString count
  | atLeast count => "at least " ++ toString count
  | any => "any number of"

end Arity

/-! ## Kinds -/

/-- The kind of an operator. -/
inductive Kind where
  /-- A value that enters the graph. -/
  | input
  /-- A value that leaves the graph. -/
  | output
  /-- A fused formula. -/
  | expression
  /-- A constant, held in the parameter `value`. -/
  | constant
  /-- Turns a number into a tensor of that one number. -/
  | numToTensor
  /-- Collects values into a list. -/
  | listConstruct
  /-- The length of a tensor along one dimension. -/
  | size
  /-- Turns a value into an integer. -/
  | int
  /-- Changes the element type or the device of a tensor. -/
  | cast
  /-- Cuts a tensor off from the record of gradients. -/
  | detach
  /-- Turns a tensor of one number into that number. -/
  | scalarImplicit
  | unary (function : UnaryFunction)
  | binary (function : BinaryFunction)
  | logical (connective : Connective)
  /-- The first value plus the second scaled by the third. -/
  | add
  /-- The first value minus the second scaled by the third. -/
  | sub
  /-- The second value scaled by the third, minus the first. -/
  | rsub
  /-- An operator that fusion does not know. -/
  | other (typeName : String)
  deriving DecidableEq, Repr

namespace Kind

/-- The type name of a kind. -/
def typeName : Kind → String
  | input => "pnnx.Input"
  | output => "pnnx.Output"
  | expression => "pnnx.Expression"
  | constant => "prim::Constant"
  | numToTensor => "prim::NumToTensor"
  | listConstruct => "prim::ListConstruct"
  | size => "aten::size"
  | int => "aten::Int"
  | cast => "aten::to"
  | detach => "aten::detach"
  | scalarImplicit => "aten::ScalarImplicit"
  | unary function => "aten::" ++ function.name
  | binary function => "aten::" ++ function.name
  | logical connective => "aten::__" ++ connective.name ++ "__"
  | add => "aten::add"
  | sub => "aten::sub"
  | rsub => "aten::rsub"
  | other typeName => typeName

/-- The kinds with a type name of their own. -/
def known : List Kind :=
  [input, output, expression, constant, numToTensor, listConstruct, size, int, cast, detach,
    scalarImplicit, add, sub, rsub] ++
    UnaryFunction.all.map unary ++ BinaryFunction.all.map binary ++ Connective.all.map logical

/-- The kind with the given type name. -/
def ofTypeName (typeName : String) : Kind :=
  (known.find? fun kind => kind.typeName = typeName).getD (other typeName)

/-- The number of inputs that an operator of the kind takes. -/
def arity : Kind → Arity
  | input | constant => .exactly 0
  | numToTensor | int | detach | unary _ => .exactly 1
  | cast | scalarImplicit => .atLeast 1
  | size | binary _ | logical _ => .exactly 2
  | add | sub | rsub => .exactly 3
  | output | expression | listConstruct | other _ => .any

/-- Whether operators of the kind can be written into a formula. -/
def isInlinable : Kind → Bool
  | input | output | expression | other _ => false
  | _ => true

/-- The name under which a formula calls the kind; other kinds are written in place or not at all.
-/
def functionName? : Kind → Option String
  | size => some "size"
  | int => some "int"
  | unary function => some function.name
  | binary function => some function.name
  | logical connective => some connective.name
  | add => some "add"
  | sub | rsub => some "sub"
  | _ => none

/-- Every kind but `other` has a type name of its own. -/
theorem mem_known_iff (kind : Kind) : kind ∈ known ↔ ∀ name, kind ≠ other name := by
  constructor
  · intro mem name eq
    subst eq
    simp [known] at mem
  · intro own
    cases kind with
    | other name => exact absurd rfl (own name)
    | unary f => simp [known, UnaryFunction.mem_all]
    | binary f => simp [known, BinaryFunction.mem_all]
    | logical c => simp [known, Connective.mem_all]
    | _ => simp [known]

end Kind

end FormulaFusion
