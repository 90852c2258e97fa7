import FormulaFusion.Graph.Links
import FormulaFusion.Graph.Order

/-!
# Validation

`Graph.validate` accepts a graph if its links agree, every operand has a producer, every operator
has a number of inputs that suits its kind, operators that can be fused have outputs, constants
have values, and no operator depends on itself.
-/

namespace FormulaFusion

/-- The fault of an operator taken by itself. -/
def Operator.fault? (op : Operator) : Option Error :=
  if !op.kind.arity.accepts op.inputs.length then
    some (.wrongArity op.name op.kind op.inputs.length)
  else if op.kind.isInlinable && op.outputs.isEmpty then some (.noOutputs op.name op.kind)
  else if op.kind = .constant && (op.params.get? "value").isNone then some (.noValue op.name)
  else none

/-- The fault of an operand without a producer. -/
def Operand.fault? (operand : Operand) : Option Error :=
  if operand.producer.isNone then some (.noProducer operand.name) else none

namespace Graph

/-- The first fault of a graph apart from cycles: of its links, its operands, its operators. -/
def fault? (g : Graph) : Option Error :=
  g.linkFault?.or ((g.operands.findSome? Operand.fault?).or (g.operators.findSome? Operator.fault?))

/-- Succeeds if the graph is well formed and without cycles. -/
def validate (g : Graph) : Except Error Unit :=
  (withoutFault g.fault? ()).bind fun _ => g.evaluationOrder.map fun _ => ()

end Graph

end FormulaFusion
