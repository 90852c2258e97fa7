import FormulaFusion.Kind

/-!
# Handles and errors

Operators and operands are named by handles, their positions in a graph.  An `Error` is the cause
for which an operation on a graph gives no result; `Error.message` is its wording and
`Error.category` its class.  An `Abort` is a failure that the operation does not report but dies
of.
-/

namespace FormulaFusion

/-- The position of an operand in a graph. -/
structure OperandId where
  index : Nat
  deriving DecidableEq, Repr, Inhabited

/-- The position of an operator in a graph. -/
structure OperatorId where
  index : Nat
  deriving DecidableEq, Repr, Inhabited

/-- An operand handle as errors show it. -/
def OperandId.text (id : OperandId) : String := "OperandId(" ++ toString id.index ++ ")"

/-- An operand handle as a reference within a graph. -/
def OperandId.reference (id : OperandId) : String := "%" ++ toString id.index

/-- An operator handle as errors show it. -/
def OperatorId.text (id : OperatorId) : String := "OperatorId(" ++ toString id.index ++ ")"

/-! ## Aborts -/

/-- A failure that ends the whole computation. -/
inductive Abort where
  /-- A list of the given size was read at an index that it does not have. -/
  | indexOutOfBounds (size index : Nat)
  /-- A sum left the range of 64-bit words. -/
  | additionOverflow
  /-- A walk over the graph came back to where it was. -/
  | endlessWalk
  deriving DecidableEq, Repr

/-- The wording of an abort. -/
def Abort.message : Abort → String
  | indexOutOfBounds size index =>
    "index out of bounds: the len is " ++ toString size ++ " but the index is " ++ toString index
  | additionOverflow => "attempt to add with overflow"
  | endlessWalk => "the walk does not end"

/-! ## Errors -/

/-- Why an operation on a graph gives no result. -/
inductive Error where
  | operatorNotFound (id : OperatorId)
  | operandNotFound (id : OperandId)
  | noProducer (operand : String)
  | alreadyProduced (operand : String) (producer : OperatorId)
  | producerMismatch (operand operator : String) (recorded : Option OperatorId)
  | consumersOutOfSync (operand : String) (recorded expected : List OperatorId)
  | noOutputs (operator : String) (kind : Kind)
  | noValue (operator : String)
  | noInput (operator : String) (kind : Kind) (index count : Nat)
  | noOutput (operator : String) (kind : Kind) (index count : Nat)
  | wrongArity (operator : String) (kind : Kind) (count : Nat)
  | cycle (operator : String) (id : OperatorId)
  /-- A pass refuses the graph for a reason of its own. -/
  | rejected (reason : String)
  | abort (cause : Abort)
  deriving DecidableEq, Repr

namespace Error

/-- The classes of errors. -/
inductive Category where
  | invalidGraph
  | arity
  | cycle
  | abort
  deriving DecidableEq, Repr

/-- The class of an error. -/
def category : Error → Category
  | noInput .. | noOutput .. | wrongArity .. => .arity
  | cycle .. => .cycle
  | abort _ => .abort
  | _ => .invalidGraph

/-- Handles with the number of times they occur, in increasing order. -/
def tally (ids : List OperatorId) : List (OperatorId × Nat) :=
  (ids.mergeSort fun a b => a.index ≤ b.index).eraseDups.map fun id => (id, ids.count id)

/-- Handles with the number of times they occur, as errors show them. -/
def tallyText (ids : List OperatorId) : String :=
  let entries := (tally ids).map fun entry => entry.1.text ++ ": " ++ toString entry.2
  "\x7b" ++ ", ".intercalate entries ++ "\x7d"

/-- A recorded producer as errors show it. -/
def recordedText : Option OperatorId → String
  | some id => "Some(" ++ id.text ++ ")"
  | none => "None"

/-- An operator's name and kind as errors show them. -/
def operatorText (operator : String) (kind : Kind) : String :=
  "Operator '" ++ operator ++ "' (" ++ kind.typeName ++ ")"

/-- The cause of an error in words. -/
def detail : Error → String
  | operatorNotFound id => "Operator " ++ id.text ++ " not found"
  | operandNotFound id => "Operand " ++ id.text ++ " not found"
  | noProducer operand => "Operand '" ++ operand ++ "' has no producer"
  | alreadyProduced operand producer =>
    "Operand '" ++ operand ++ "' already produced by operator " ++ producer.text
  | producerMismatch operand operator recorded =>
    "Operand '" ++ operand ++ "' is an output of operator '" ++ operator ++
      "' but its producer is " ++ recordedText recorded
  | consumersOutOfSync operand recorded expected =>
    "Consumer list of operand '" ++ operand ++ "' is out of sync: recorded " ++
      tallyText recorded ++ ", expected " ++ tallyText expected
  | noOutputs operator kind => operatorText operator kind ++ " has no outputs"
  | noValue operator => "Constant operator '" ++ operator ++ "' has no 'value' parameter"
  | noInput operator kind index count =>
    operatorText operator kind ++ " has no input #" ++ toString index ++ " (has " ++
      toString count ++ ")"
  | noOutput operator kind index count =>
    operatorText operator kind ++ " has no output #" ++ toString index ++ " (has " ++
      toString count ++ ")"
  | wrongArity operator kind count =>
    operatorText operator kind ++ " expects " ++ kind.arity.text ++ " inputs, got " ++
      toString count
  | cycle operator id => "Operator '" ++ operator ++ "' (" ++ id.text ++ ") is part of a cycle"
  | rejected reason => reason
  | abort cause => cause.message

/-- The class of an error in words. -/
def Category.text : Category → String
  | invalidGraph => "Invalid graph structure: "
  | arity => "Arity error: "
  | cycle => "Cycle detected: "
  | abort => ""

/-- The wording of an error. -/
def message (error : Error) : String := error.category.text ++ error.detail

end Error

end FormulaFusion
