import FormulaFusion.Graph.Basic

/-!
# Classification of operands

Two questions decide how an operand is written into a formula.  `Graph.tensorValued` asks whether
its value may be a tensor rather than a scalar or a list; `Graph.fromConstants` asks whether it is
computed from constants alone.  Both walk backwards from producer to producer.  A walk that does
not come back to an operand enters at most as many as the graph has, which bounds its depth.
-/

namespace FormulaFusion

/-- The inputs from which a kind inherits whether its value is a tensor. -/
def Kind.inherited : Kind → List Nat
  | .numToTensor | .int | .cast | .detach | .unary _ => [0]
  | .binary _ | .logical _ => [0, 1]
  | .add | .sub | .rsub => [0, 1, 2]
  | _ => []

namespace Graph

/-- `tensorValued` with a bound on the depth of the walk. -/
def tensorValuedWithin (g : Graph) : Nat → OperandId → Except Error Bool
  | 0, _ => .error (.abort .endlessWalk)
  | depth + 1, id =>
    (g.source id).bind fun op =>
      match op.kind with
      | .constant => op.value.map fun parameter => !parameter.isLiteral
      | .input | .output | .expression | .other _ => .ok true
      | kind => kind.inherited.anyM fun index => (op.input index).bind (g.tensorValuedWithin depth)

/-- Whether the value of an operand may be a tensor.  Values of unknown operators may be tensors;
sizes, lists and extracted scalars never are. -/
def tensorValued (g : Graph) (id : OperandId) : Except Error Bool :=
  g.tensorValuedWithin (g.operands.length + 1) id

/-- `fromConstants` with a bound on the depth of the walk. -/
def fromConstantsWithin (g : Graph) (foldable : List String) : Nat → OperandId → Except Error Bool
  | 0, _ => .error (.abort .endlessWalk)
  | depth + 1, id =>
    (g.operand id).bind fun operand =>
      if operand.name ∈ foldable then .ok true
      else
        (g.source id).bind fun op =>
          if op.kind = .input then .ok false
          else op.inputs.allM (g.fromConstantsWithin foldable depth)

/-- Whether the value of an operand is known before the graph runs: its name is among `foldable`,
or its producer is no graph input and has such inputs only. -/
def fromConstants (g : Graph) (foldable : List String) (id : OperandId) : Except Error Bool :=
  g.fromConstantsWithin foldable (g.operands.length + 1) id

end Graph

end FormulaFusion
