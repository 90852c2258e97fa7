import FormulaFusion.Classification
import FormulaFusion.Formula.Basic
import FormulaFusion.Frontier

/-!
# Expansion of operands into formulas

`Graph.expand` writes the value of an operand as a formula over other operands.  Constants, size
queries, casts and elementwise functions are written out by going back to their producers; any
other value is a slot.  Below the top, a value that may be a tensor is also left as a slot if it is
shared or computed from constants alone (`Graph.isHeldBack`).  `Graph.fusedFormula` numbers the
slots in the order in which they first appear.
-/

namespace FormulaFusion

/-! ## Formulas of single operators -/

/-- The positions of the inputs that a formula of the operator reads, in reading order. -/
def Operator.dataPositions (op : Operator) : List Nat :=
  match op.kind with
  | .numToTensor | .cast | .detach | .scalarImplicit | .int | .unary _ => [0]
  | .size | .binary _ | .logical _ => [0, 1]
  | .add | .sub => [0, 1, 2]
  | .rsub => [1, 2, 0]
  | .listConstruct => List.range op.inputs.length
  | _ => []

namespace Formula

variable {σ : Type}

/-- Whether a formula is spelled `1`. -/
def isUnit : Formula σ → Bool
  | literal value => value.text == ['1']
  | _ => false

/-- A formula times a factor; the factor `1` is left out. -/
def scaled (formula factor : Formula σ) : Formula σ :=
  if factor.isUnit then formula else call "mul" [formula, factor]

/-- The formula of an operator, given the formulas of its inputs in reading order. -/
def ofKind : Kind → List (Formula σ) → Formula σ
  | .numToTensor, [value] | .cast, [value] | .detach, [value] | .scalarImplicit, [value] => value
  | .listConstruct, items => list items
  | .add, [value, other, factor] => call "add" [value, scaled other factor]
  | .sub, [value, other, factor] => call "sub" [value, scaled other factor]
  | .rsub, [other, factor, value] => call "sub" [scaled other factor, value]
  | kind, args => call (kind.functionName?.getD "") args

end Formula

/-! ## Expansion -/

namespace Graph

/-- Whether an operator has several outputs, or a first output with several consumers. -/
def isShared (g : Graph) (op : Operator) : Except Error Bool :=
  if 1 < op.outputs.length then .ok true
  else (op.output 0).bind fun output =>
    (g.consumers output).map fun consumers => decide (1 < consumers.length)

/-- Whether an operand that `op` produces stays a slot below the top of a formula. -/
def isHeldBack (g : Graph) (foldable : List String) (id : OperandId) (op : Operator) :
    Except Error Bool :=
  (g.tensorValued id).bind fun tensor =>
    if tensor then
      (g.isShared op).bind fun shared =>
        if shared then .ok true else g.fromConstants foldable id
    else .ok false

/-- `expand` with a bound on the depth of the walk; `nested` tells whether the operand stands below
the top of the formula. -/
def expandWithin (g : Graph) (foldable : List String) :
    Nat → Bool → OperandId → Except Error (Formula OperandId)
  | 0, _, _ => .error (.abort .endlessWalk)
  | depth + 1, nested, id =>
    (g.source id).bind fun op =>
      (if nested then g.isHeldBack foldable id op else .ok false).bind fun heldBack =>
        if heldBack then .ok (.slot id)
        else
          match op.kind with
          | .input | .output | .expression | .other _ => .ok (.slot id)
          | .constant =>
            op.value.map fun parameter =>
              match parameter.literal? with
              | some value => .literal value
              | none => .slot id
          | kind =>
            (op.dataPositions.mapM fun index =>
              (op.input index).bind (g.expandWithin foldable depth true)).map (.ofKind kind)

/-- The value of an operand as a formula over the operands that are not written out. -/
def expand (g : Graph) (foldable : List String) (id : OperandId) :
    Except Error (Formula OperandId) :=
  g.expandWithin foldable (g.operands.length + 2) false id

end Graph

/-- A formula with numbered slots, and the operands that the slots stand for. -/
structure FusedFormula where
  formula : Formula Nat
  inputs : List OperandId

/-- Numbers the slots of a formula in the order in which they first appear. -/
def FusedFormula.ofFormula (formula : Formula OperandId) : FusedFormula :=
  let frontier := Frontier.ofList formula.slots
  ⟨formula.relabel fun id => (frontier.slot? id).getD 0, frontier.operands⟩

/-- The spelling of the formula. -/
def FusedFormula.text (fused : FusedFormula) : String := fused.formula.render

/-- The value of an operand as a formula with numbered slots. -/
def Graph.fusedFormula (g : Graph) (foldable : List String) (id : OperandId) :
    Except Error FusedFormula :=
  (g.expand foldable id).map FusedFormula.ofFormula

end FormulaFusion
