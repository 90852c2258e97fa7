import FormulaFusion.Error
import FormulaFusion.Fields
import FormulaFusion.Parameter

/-!
# Computation graphs

A `Graph` holds operators and operands in the order in which they were added; both are named by
their positions.  An operand records the operator that produces it and, once for every input slot
that names it, an operator that consumes it.  `Graph.pushOperator` and `Graph.rewire` keep these
records in step with the operators; `Graph.modifyOperator` changes an operator and leaves the
records alone.
-/

namespace FormulaFusion

/-- A traced operation. -/
structure Operator where
  kind : Kind
  name : String
  inputs : List OperandId := []
  outputs : List OperandId := []
  params : Fields Parameter := ∅
  attrs : Fields Attribute := ∅
  deriving DecidableEq

/-- A value that flows between operators. -/
structure Operand where
  name : String
  producer : Option OperatorId := none
  consumers : List OperatorId := []
  deriving DecidableEq, Repr

/-- Operators and operands in the order in which they were added. -/
structure Graph where
  operators : List Operator := []
  operands : List Operand := []
  deriving DecidableEq

/-- The value, unless there is a fault. -/
def withoutFault {α : Type} (fault : Option Error) (value : α) : Except Error α :=
  match fault with
  | none => .ok value
  | some error => .error error

theorem withoutFault_eq_ok_iff {α : Type} (fault : Option Error) (value result : α) :
    withoutFault fault value = .ok result ↔ fault = none ∧ value = result := by
  cases fault <;> simp [withoutFault]

/-! ## Operators -/

namespace Operator

/-- The operand at a position among the inputs. -/
def input (op : Operator) (index : Nat) : Except Error OperandId :=
  match op.inputs[index]? with
  | some operand => .ok operand
  | none => .error (.noInput op.name op.kind index op.inputs.length)

/-- The operand at a position among the outputs. -/
def output (op : Operator) (index : Nat) : Except Error OperandId :=
  match op.outputs[index]? with
  | some operand => .ok operand
  | none => .error (.noOutput op.name op.kind index op.outputs.length)

/-- The parameter `value` of a constant. -/
def value (op : Operator) : Except Error Parameter :=
  match op.params.get? "value" with
  | some parameter => .ok parameter
  | none => .error (.noValue op.name)

/-- Equality of operators, with doubles compared as numbers. -/
def same (a b : Operator) : Bool :=
  a.kind == b.kind && a.name == b.name && a.inputs == b.inputs && a.outputs == b.outputs &&
    a.params.entries.length == b.params.entries.length &&
    (a.params.entries.zip b.params.entries).all (fun pair =>
      pair.1.1 == pair.2.1 && pair.1.2.same pair.2.2) &&
    a.attrs == b.attrs

end Operator

namespace Graph

/-! ## Reading a graph -/

/-- The graph without operators and operands. -/
def empty : Graph := {}

/-- The operator with the given handle. -/
def operator (g : Graph) (id : OperatorId) : Except Error Operator :=
  match g.operators[id.index]? with
  | some op => .ok op
  | none => .error (.operatorNotFound id)

/-- The operand with the given handle. -/
def operand (g : Graph) (id : OperandId) : Except Error Operand :=
  match g.operands[id.index]? with
  | some operand => .ok operand
  | none => .error (.operandNotFound id)

/-- The fault of a handle that names no operand. -/
def missingOperand? (g : Graph) (id : OperandId) : Option Error :=
  if id.index < g.operands.length then none else some (.operandNotFound id)

/-- The handles of all operators in program order. -/
def operatorIds (g : Graph) : List OperatorId := (List.range g.operators.length).map .mk

/-- The handles of all operands. -/
def operandIds (g : Graph) : List OperandId := (List.range g.operands.length).map .mk

/-- The first operand with the given name. -/
def operandNamed? (g : Graph) (name : String) : Option OperandId :=
  (g.operands.findIdx? fun operand => operand.name == name).map .mk

/-- The operator that produces an operand. -/
def producer (g : Graph) (id : OperandId) : Except Error OperatorId :=
  (g.operand id).bind fun operand =>
    match operand.producer with
    | some producer => .ok producer
    | none => .error (.noProducer operand.name)

/-- The operators that consume an operand, once for every input slot. -/
def consumers (g : Graph) (id : OperandId) : Except Error (List OperatorId) :=
  (g.operand id).map Operand.consumers

/-- The operator that produces an operand, by value. -/
def source (g : Graph) (id : OperandId) : Except Error Operator := (g.producer id).bind g.operator

/-- Equality of graphs, with doubles compared as numbers. -/
def same (g h : Graph) : Bool :=
  g.operators.length == h.operators.length &&
    (g.operators.zip h.operators).all (fun pair => pair.1.same pair.2) && g.operands == h.operands

/-! ## Changing a graph -/

/-- The graph with one operand changed. -/
def modifyOperand (g : Graph) (id : OperandId) (f : Operand → Operand) : Graph :=
  { g with operands := g.operands.modify id.index f }

/-- The graph with one operator changed and all links as they were. -/
def modifyOperator (g : Graph) (id : OperatorId) (f : Operator → Operator) : Except Error Graph :=
  if id.index < g.operators.length then
    .ok { g with operators := g.operators.modify id.index f }
  else .error (.operatorNotFound id)

/-- The graph with a new operand, which nothing produces or consumes, and its handle. -/
def pushOperand (g : Graph) (name : String) : Graph × OperandId :=
  ({ g with operands := g.operands ++ [⟨name, none, []⟩] }, ⟨g.operands.length⟩)

/-- The graph with new operands of the given names, and their handles. -/
def pushOperands (g : Graph) (names : List String) : Graph × List OperandId :=
  names.foldl (fun (g, ids) name =>
    let (g, id) := g.pushOperand name
    (g, ids ++ [id])) (g, [])

/-- Records `id` as a consumer of each of the operands. -/
def attach (g : Graph) (id : OperatorId) (inputs : List OperandId) : Graph :=
  inputs.foldl (fun g input =>
    g.modifyOperand input fun operand =>
      { operand with consumers := operand.consumers ++ [id] }) g

/-- Strikes one record of `id` as a consumer of each of the operands. -/
def detach (g : Graph) (id : OperatorId) (inputs : List OperandId) : Graph :=
  inputs.foldl (fun g input =>
    g.modifyOperand input fun operand =>
      { operand with consumers := operand.consumers.erase id }) g

/-- Records `id` as the producer of each of the operands. -/
def produce (g : Graph) (id : OperatorId) (outputs : List OperandId) : Graph :=
  outputs.foldl (fun g output =>
    g.modifyOperand output fun operand => { operand with producer := some id }) g

/-- The fault of an output that does not exist or is produced already. -/
def produceFault? (g : Graph) (output : OperandId) : Option Error :=
  match g.operands[output.index]? with
  | none => some (.operandNotFound output)
  | some operand => operand.producer.map (.alreadyProduced operand.name)

/-- The graph with a new operator, linked to its inputs and outputs, and its handle. -/
def pushOperator (g : Graph) (op : Operator) : Except Error (Graph × OperatorId) :=
  let id : OperatorId := ⟨g.operators.length⟩
  let linked := (g.produce id op.outputs).attach id op.inputs
  withoutFault ((op.inputs.findSome? g.missingOperand?).or (op.outputs.findSome? g.produceFault?))
    ({ linked with operators := g.operators ++ [op] }, id)

/-- The abort of striking a record from an operand that does not exist. -/
def detachFault? (g : Graph) (input : OperandId) : Option Error :=
  if input.index < g.operands.length then none
  else some (.abort (.indexOutOfBounds g.operands.length input.index))

/-- The graph with the inputs of an operator replaced, and its links with them. -/
def rewire (g : Graph) (id : OperatorId) (inputs : List OperandId) : Except Error Graph :=
  (withoutFault (inputs.findSome? g.missingOperand?) ()).bind fun _ =>
    (g.operator id).bind fun op =>
      (withoutFault (op.inputs.findSome? g.detachFault?) ()).bind fun _ =>
        ((g.detach id op.inputs).attach id inputs).modifyOperator id fun op =>
          { op with inputs := inputs }

/-! ## What the operations do -/

theorem operator_eq_ok_iff (g : Graph) (id : OperatorId) (op : Operator) :
    g.operator id = .ok op ↔ g.operators[id.index]? = some op := by
  unfold operator
  split <;> simp_all

theorem operand_eq_ok_iff (g : Graph) (id : OperandId) (operand : Operand) :
    g.operand id = .ok operand ↔ g.operands[id.index]? = some operand := by
  unfold Graph.operand
  split <;> simp_all

theorem missingOperand?_eq_none_iff (g : Graph) (id : OperandId) :
    g.missingOperand? id = none ↔ id.index < g.operands.length := by
  simp [missingOperand?]

theorem detachFault?_eq_none_iff (g : Graph) (id : OperandId) :
    g.detachFault? id = none ↔ id.index < g.operands.length := by
  simp [detachFault?]

theorem producer_eq_ok_iff (g : Graph) (id : OperandId) (p : OperatorId) :
    g.producer id = .ok p ↔
      ∃ operand, g.operands[id.index]? = some operand ∧ operand.producer = some p := by
  unfold producer Graph.operand
  cases found : g.operands[id.index]? with
  | none => simp [Except.bind]
  | some operand => cases h : operand.producer <;> simp [Except.bind, h]

@[simp]
theorem operators_modifyOperand (g : Graph) (id : OperandId) (f : Operand → Operand) :
    (g.modifyOperand id f).operators = g.operators := rfl

@[simp]
theorem length_operands_modifyOperand (g : Graph) (id : OperandId) (f : Operand → Operand) :
    (g.modifyOperand id f).operands.length = g.operands.length := by
  simp [modifyOperand]

@[simp]
theorem operators_attach (g : Graph) (id : OperatorId) (inputs : List OperandId) :
    (g.attach id inputs).operators = g.operators := by
  unfold attach
  induction inputs generalizing g with
  | nil => rfl
  | cons input rest ih => rw [List.foldl_cons, ih, operators_modifyOperand]

@[simp]
theorem operators_detach (g : Graph) (id : OperatorId) (inputs : List OperandId) :
    (g.detach id inputs).operators = g.operators := by
  unfold detach
  induction inputs generalizing g with
  | nil => rfl
  | cons input rest ih => rw [List.foldl_cons, ih, operators_modifyOperand]

@[simp]
theorem operators_produce (g : Graph) (id : OperatorId) (outputs : List OperandId) :
    (g.produce id outputs).operators = g.operators := by
  unfold produce
  induction outputs generalizing g with
  | nil => rfl
  | cons output rest ih => rw [List.foldl_cons, ih, operators_modifyOperand]

end Graph

end FormulaFusion
