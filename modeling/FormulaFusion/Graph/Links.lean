import FormulaFusion.Graph.Basic

/-!
# Agreement of links

An operand's consumers should be, in any order, one entry for every input slot that names it, and
an operator's outputs should record it as their producer.  `Graph.linkFault?` finds the first place
where the records disagree: first by operators in program order, then by operands.
-/

namespace FormulaFusion

namespace Graph

/-- The operators that name an operand as an input, once for every slot, in program order. -/
def expectedConsumers (g : Graph) (id : OperandId) : List OperatorId :=
  g.operators.zipIdx.flatMap fun (op, index) => List.replicate (op.inputs.count id) ⟨index⟩

/-- The fault of an output that does not exist or records another producer. -/
def outputFault? (g : Graph) (id : OperatorId) (op : Operator) (output : OperandId) :
    Option Error :=
  match g.operands[output.index]? with
  | none => some (.operandNotFound output)
  | some operand =>
    if operand.producer = some id then none
    else some (.producerMismatch operand.name op.name operand.producer)

/-- The first fault among the inputs and outputs of an operator. -/
def operatorFault? (g : Graph) (id : OperatorId) (op : Operator) : Option Error :=
  (op.inputs.findSome? g.missingOperand?).or (op.outputs.findSome? (g.outputFault? id op))

/-- The fault of an operand whose consumers are not those that name it. -/
def consumerFault? (g : Graph) (id : OperandId) (operand : Operand) : Option Error :=
  let expected := g.expectedConsumers id
  if operand.consumers.isPerm expected then none
  else some (.consumersOutOfSync operand.name operand.consumers expected)

/-- The first disagreement among the links of a graph. -/
def linkFault? (g : Graph) : Option Error :=
  (g.operators.zipIdx.findSome? fun (op, index) => g.operatorFault? ⟨index⟩ op).or
    (g.operands.zipIdx.findSome? fun (operand, index) => g.consumerFault? ⟨index⟩ operand)

/-- Succeeds if the links of the graph agree. -/
def verifyLinks (g : Graph) : Except Error Unit := withoutFault g.linkFault? ()

theorem outputFault?_eq_none_iff (g : Graph) (id : OperatorId) (op : Operator)
    (output : OperandId) : g.outputFault? id op output = none ↔
      ∃ operand, g.operands[output.index]? = some operand ∧ operand.producer = some id := by
  unfold outputFault?
  cases g.operands[output.index]? <;> simp

theorem consumerFault?_eq_none_iff (g : Graph) (id : OperandId) (operand : Operand) :
    g.consumerFault? id operand = none ↔ operand.consumers.Perm (g.expectedConsumers id) := by
  simp [consumerFault?, List.isPerm_iff]

end Graph

end FormulaFusion
