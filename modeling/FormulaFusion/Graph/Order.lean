import FormulaFusion.Graph.Basic
import FormulaFusion.Precedence

/-!
# Topological order

Every operator comes after the producers of its inputs.  `Graph.evaluationOrder` lists the operators
in such an order, or fails with an operator on a cycle.
-/

namespace FormulaFusion

namespace Graph

/-- The producer of an operand, checked to be an operator of the graph. -/
def placedProducer (g : Graph) (id : OperandId) : Except Error OperatorId :=
  (g.producer id).bind fun producer =>
    if producer.index < g.operators.length then .ok producer
    else .error (.abort (.indexOutOfBounds g.operators.length producer.index))

/-- For every input of every operator, its producer and the operator. -/
def dependencies (g : Graph) : Except Error (List (OperatorId × OperatorId)) :=
  let slots := g.operators.zipIdx.flatMap fun (op, index) =>
    op.inputs.map fun input => (input, OperatorId.mk index)
  slots.mapM fun (input, consumer) =>
    (g.placedProducer input).map fun producer => (producer, consumer)

/-- The name of an operator, empty if there is none. -/
def operatorName (g : Graph) (id : OperatorId) : String :=
  (g.operators[id.index]?.map Operator.name).getD ""

/-- The operators in an order in which every producer precedes its consumers. -/
def evaluationOrder (g : Graph) : Except Error (List OperatorId) :=
  g.dependencies.bind fun pairs =>
    match (Precedence.mk g.operatorIds pairs).sort with
    | .ok order => .ok order
    | .error id => .error (.cycle (g.operatorName id) id)

end Graph

end FormulaFusion
