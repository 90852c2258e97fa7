import FormulaFusion.Classification
import FormulaFusion.Proofs.Graph.WellFormed

/-!
# Classification of determined graphs

In a determined graph both classifications answer for every operand: every walk finds producers and
inputs where it looks for them, and it ends, because each step lowers the height.  For the question
about constants a grounded graph is enough, since it asks for no particular inputs.  What an answer
depends on is said by `tensorValuedWithin_succ_congr` and `fromConstantsWithin_succ_congr`: the
operand's own record and the answers for the inputs of its producer.
-/

namespace FormulaFusion

/-! ## Inputs of operators -/

namespace Operator

theorem input_eq_ok_iff (op : Operator) (index : Nat) (a : OperandId) :
    op.input index = .ok a ↔ op.inputs[index]? = some a := by
  unfold input
  split <;> simp_all

theorem output_eq_ok_iff (op : Operator) (index : Nat) (a : OperandId) :
    op.output index = .ok a ↔ op.outputs[index]? = some a := by
  unfold output
  split <;> simp_all

theorem exists_input_eq_ok {op : Operator} {index : Nat} (inside : index < op.inputs.length) :
    ∃ a ∈ op.inputs, op.input index = .ok a :=
  ⟨op.inputs[index], List.getElem_mem inside,
    (op.input_eq_ok_iff index _).2 (List.getElem?_eq_getElem inside)⟩

theorem mem_inputs_of_input {op : Operator} {index : Nat} {a : OperandId}
    (input : op.input index = .ok a) : a ∈ op.inputs :=
  List.mem_of_getElem? ((op.input_eq_ok_iff index a).1 input)

end Operator

/-- An operator with as many inputs as its kind takes has those it inherits from. -/
theorem Kind.lt_of_mem_inherited {kind : Kind} {count index : Nat}
    (arity : kind.arity.accepts count = true) (mem : index ∈ kind.inherited) : index < count := by
  cases kind <;> simp_all [Kind.arity, Kind.inherited, Arity.accepts] <;> omega

namespace Graph

/-! ## Tensors -/

/-- The value of an operand is not given by its inputs alone: it enters or leaves the graph, comes from
an expression or an unknown operator, or is a constant without a literal value. -/
def Opaque (g : Graph) (a : OperandId) : Prop :=
  ∃ op, g.source a = .ok op ∧
    (op.kind = .input ∨ op.kind = .output ∨ op.kind = .expression ∨ (∃ name, op.kind = .other name) ∨
      op.kind = .constant ∧ ∃ value, op.value = .ok value ∧ ∀ literal, value ≠ .literal literal)

theorem opaque_iff {g : Graph} {a : OperandId} {op : Operator} (source : g.source a = .ok op) :
    g.Opaque a ↔ op.kind = .input ∨ op.kind = .output ∨ op.kind = .expression ∨
      (∃ name, op.kind = .other name) ∨ op.kind = .constant ∧
        ∃ value, op.value = .ok value ∧ ∀ literal, value ≠ .literal literal := by
  simp [Opaque, source]

/-- The answer for an operand depends on its producer and on the answers for the inputs of that. -/
theorem tensorValuedWithin_succ_congr {g h : Graph} {depth : Nat} {a : OperandId}
    (source : h.source a = g.source a)
    (inputs : ∀ op, g.source a = .ok op → ∀ b ∈ op.inputs,
      h.tensorValuedWithin depth b = g.tensorValuedWithin depth b) :
    h.tensorValuedWithin (depth + 1) a = g.tensorValuedWithin (depth + 1) a := by
  rw [tensorValuedWithin, tensorValuedWithin, source]
  cases found : g.source a with
  | error e => rw [bind_error, bind_error]
  | ok op =>
    simp only [bind_ok]
    split
    case h_6 =>
      apply anyM_congr _ _ _
      intro index _
      cases input : op.input index with
      | error e => rw [bind_error, bind_error]
      | ok b => exact inputs op found b (Operator.mem_inputs_of_input input)
    all_goals rfl

/-- The inputs from which an operator inherits exist. -/
theorem Determined.exists_inherited {g : Graph} (determined : g.Determined) {a : OperandId}
    {op : Operator} (source : g.source a = .ok op) {index : Nat}
    (inherited : index ∈ op.kind.inherited) : ∃ b, op.input index = .ok b ∧ g.Feeds b a := by
  have arity := determined.arity op (mem_operators_of_source source)
  obtain ⟨b, input, found⟩ :=
    Operator.exists_input_eq_ok (Kind.lt_of_mem_inherited arity inherited)
  exact ⟨b, found, op, source, input⟩

theorem Determined.exists_tensorValuedWithin {g : Graph} (determined : g.Determined) {depth : Nat}
    {a : OperandId} (known : a.index < g.operands.length) (enough : g.height a < depth) :
    ∃ answer, g.tensorValuedWithin depth a = .ok answer := by
  induction depth generalizing a with
  | zero => omega
  | succ depth ih =>
    obtain ⟨op, source⟩ := determined.produced a known
    have mem := mem_operators_of_source source
    rw [tensorValuedWithin, source, bind_ok]
    split
    case h_1 constant =>
      obtain ⟨value, found⟩ := determined.valued op mem constant
      exact ⟨!value.isLiteral, by rw [found]; rfl⟩
    case h_6 =>
      apply exists_anyM_eq_ok _ _
      intro index inherited
      obtain ⟨b, found, feeds⟩ := determined.exists_inherited source inherited
      have lower := determined.height_lt feeds
      rw [found, bind_ok]
      exact ih (determined.known_of_feeds feeds) (by omega)
    all_goals exact ⟨true, rfl⟩

theorem Determined.exists_tensorValued {g : Graph} (determined : g.Determined) {a : OperandId}
    (known : a.index < g.operands.length) : ∃ answer, g.tensorValued a = .ok answer :=
  determined.exists_tensorValuedWithin known
    ((determined.acyclic.height_lt_length known).trans (Nat.lt_succ_self _))

/-! ## Constants -/

/-- The answer for an operand depends on its name, its producer and the answers for the inputs of
that. -/
theorem fromConstantsWithin_succ_congr {g h : Graph} {foldable : List String} {depth : Nat}
    {a : OperandId} (name : (h.operand a).map Operand.name = (g.operand a).map Operand.name)
    (source : h.source a = g.source a)
    (inputs : ∀ op, g.source a = .ok op → ∀ b ∈ op.inputs,
      h.fromConstantsWithin foldable depth b = g.fromConstantsWithin foldable depth b) :
    h.fromConstantsWithin foldable (depth + 1) a = g.fromConstantsWithin foldable (depth + 1) a := by
  have byName : ∀ k : Graph, k.fromConstantsWithin foldable (depth + 1) a =
      ((k.operand a).map Operand.name).bind fun name =>
        if name ∈ foldable then .ok true
        else (k.source a).bind fun op =>
          if op.kind = .input then .ok false
          else op.inputs.allM (k.fromConstantsWithin foldable depth) := by
    intro k
    rw [fromConstantsWithin]
    cases k.operand a <;> rfl
  rw [byName, byName, name, source]
  congr 1
  funext name
  congr 1
  cases found : g.source a with
  | error e => rw [bind_error, bind_error]
  | ok op => rw [bind_ok, bind_ok, allM_congr _ _ _ (inputs op found)]

theorem Grounded.exists_fromConstantsWithin {g : Graph} (grounded : g.Grounded)
    (foldable : List String) {depth : Nat} {a : OperandId} (known : a.index < g.operands.length)
    (enough : g.height a < depth) :
    ∃ answer, g.fromConstantsWithin foldable depth a = .ok answer := by
  induction depth generalizing a with
  | zero => omega
  | succ depth ih =>
    obtain ⟨op, source⟩ := grounded.produced a known
    rw [fromConstantsWithin, (g.operand_eq_ok_iff a _).2 (List.getElem?_eq_getElem known), source]
    simp only [bind_ok]
    split_ifs
    · exact ⟨true, rfl⟩
    · exact ⟨false, rfl⟩
    · apply exists_allM_eq_ok _ _
      intro b input
      have feeds : g.Feeds b a := ⟨op, source, input⟩
      have lower := grounded.height_lt feeds
      exact ih (grounded.known_of_feeds feeds) (by omega)

theorem Grounded.exists_fromConstants {g : Graph} (grounded : g.Grounded)
    (foldable : List String) {a : OperandId} (known : a.index < g.operands.length) :
    ∃ answer, g.fromConstants foldable a = .ok answer :=
  grounded.exists_fromConstantsWithin foldable known
    ((grounded.acyclic.height_lt_length known).trans (Nat.lt_succ_self _))

end Graph

end FormulaFusion
