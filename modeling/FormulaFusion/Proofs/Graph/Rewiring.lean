import FormulaFusion.Fusion
import FormulaFusion.Proofs.Graph.Edits

/-!
# Rewiring in place

`Graph.rewire` gives the graph with new inputs for an operator, or the reason why there is none.
`Graph.rewireInPlace` makes its changes one after the other and keeps the graph as it stands when it
ends: the operator gives up its inputs, its records are struck from the old inputs in their order, and
then entered at the new ones.  Both end alike, and a completed rewiring leaves the graph that
`Graph.rewire` gives.  New inputs and the operator are looked up before the first change, so an error
leaves the graph as it was.  Old inputs are not looked up: one that does not exist, which only a change
of the operator behind the links can bring in, aborts the rewiring half way
(`Graph.rewireInPlace_done_refused_or_torn`).
-/

namespace FormulaFusion

namespace Graph

/-- The graph with the inputs of one operator replaced and all links as they were. -/
def withInputs (g : Graph) (id : OperatorId) (inputs : List OperandId) : Graph :=
  { g with operators := g.operators.modify id.index fun op => { op with inputs := inputs } }

/-- Strikes records of `id` from one operand after the other, until one does not exist. -/
def detachInPlace (id : OperatorId) : List OperandId → Graph → Outcome Unit
  | [], g => ⟨g, .ok ()⟩
  | input :: rest, g =>
    match g.detachFault? input with
    | some fault => ⟨g, .error fault⟩
    | none => detachInPlace id rest (g.detach id [input])

/-- Rewires an operator by single changes. -/
def rewireInPlace (g : Graph) (id : OperatorId) (inputs : List OperandId) : Outcome Unit :=
  match inputs.findSome? g.missingOperand? with
  | some fault => ⟨g, .error fault⟩
  | none =>
    match g.operator id with
    | .error error => ⟨g, .error error⟩
    | .ok op =>
      let detached := detachInPlace id op.inputs (g.withInputs id [])
      match detached.result with
      | .error error => ⟨detached.graph, .error error⟩
      | .ok _ => ⟨(detached.graph.attach id inputs).withInputs id inputs, .ok ()⟩

/-! ## Striking records -/

/-- Changes of operands and of an operator's inputs do not interfere. -/
theorem foldl_modifyOperand_withInputs (g : Graph) (id : OperatorId) (inputs : List OperandId)
    (f : Operand → Operand) (ids : List OperandId) :
    ids.foldl (fun g a => g.modifyOperand a f) (g.withInputs id inputs) =
      (ids.foldl (fun g a => g.modifyOperand a f) g).withInputs id inputs := by
  induction ids generalizing g with
  | nil => rfl
  | cons a rest ih => exact ih (g.modifyOperand a f)

theorem detach_withInputs (g : Graph) (id : OperatorId) (inputs old : List OperandId) :
    (g.withInputs id inputs).detach id old = (g.detach id old).withInputs id inputs :=
  foldl_modifyOperand_withInputs g id inputs _ old

theorem attach_withInputs (g : Graph) (id : OperatorId) (inputs new : List OperandId) :
    (g.withInputs id inputs).attach id new = (g.attach id new).withInputs id inputs :=
  foldl_modifyOperand_withInputs g id inputs _ new

theorem withInputs_withInputs (g : Graph) (id : OperatorId) (old new : List OperandId) :
    (g.withInputs id old).withInputs id new = g.withInputs id new := by
  simp [withInputs, List.modify_modify_eq, Function.comp_def]

/-- Records are struck from operands that exist, and the striking goes on with the rest. -/
theorem detachInPlace_append {g : Graph} {id : OperatorId} {before : List OperandId}
    (known : ∀ a ∈ before, a.index < g.operands.length) (rest : List OperandId) :
    detachInPlace id (before ++ rest) g = detachInPlace id rest (g.detach id before) := by
  induction before generalizing g with
  | nil => rfl
  | cons input before ih =>
    have here := (g.detachFault?_eq_none_iff input).2 (known input List.mem_cons_self)
    have others : ∀ a ∈ before, a.index < (g.detach id [input]).operands.length := by
      intro a mem
      rw [length_operands_detach]
      exact known a (List.mem_cons_of_mem input mem)
    rw [List.cons_append, detachInPlace, here]
    exact ih others

theorem detachInPlace_of_known {g : Graph} {id : OperatorId} {inputs : List OperandId}
    (known : ∀ a ∈ inputs, a.index < g.operands.length) :
    detachInPlace id inputs g = ⟨g.detach id inputs, .ok ()⟩ := by
  have all : detachInPlace id (inputs ++ []) g = _ := detachInPlace_append known []
  rw [List.append_nil] at all
  exact all

/-- The striking ends at an operand that does not exist; the records before it are gone. -/
theorem detachInPlace_of_missing {g : Graph} {id : OperatorId} {before : List OperandId}
    {a : OperandId} (known : ∀ b ∈ before, b.index < g.operands.length)
    (missing : g.operands.length ≤ a.index) (after : List OperandId) :
    detachInPlace id (before ++ a :: after) g =
      ⟨g.detach id before, .error (.abort (.indexOutOfBounds g.operands.length a.index))⟩ := by
  have fault : (g.detach id before).detachFault? a =
      some (.abort (.indexOutOfBounds g.operands.length a.index)) := by
    simp [detachFault?, Nat.not_lt.2 missing]
  rw [detachInPlace_append known, detachInPlace, fault]

/-! ## The ends of a rewiring -/

/-- An unknown handle among the new inputs is reported before anything changes. -/
theorem rewire_of_missing {g : Graph} {inputs : List OperandId} {fault : Error}
    (missing : inputs.findSome? g.missingOperand? = some fault) (id : OperatorId) :
    g.rewire id inputs = .error fault ∧ g.rewireInPlace id inputs = ⟨g, .error fault⟩ ∧
      fault.category = .invalidGraph ∧ ∃ a ∈ inputs, g.operands.length ≤ a.index := by
  obtain ⟨a, mem, found⟩ := List.exists_of_findSome?_eq_some missing
  unfold missingOperand? at found
  split_ifs at found with known
  obtain rfl := Option.some.inj found
  refine ⟨?_, ?_, rfl, a, mem, Nat.not_lt.1 known⟩
  · rw [rewire, missing]
    rfl
  · rw [rewireInPlace, missing]

section Known

variable {g : Graph} {id : OperatorId} {inputs : List OperandId}
  (known : inputs.findSome? g.missingOperand? = none)
include known

theorem rewire_of_unknown_operator (unknown : g.operators[id.index]? = none) :
    g.rewire id inputs = .error (.operatorNotFound id) ∧
      g.rewireInPlace id inputs = ⟨g, .error (.operatorNotFound id)⟩ := by
  have failed : g.operator id = .error (.operatorNotFound id) := by
    rw [operator, unknown]
  constructor
  · rw [rewire, known, failed]
    rfl
  · rw [rewireInPlace, known, failed]

/-- With old and new inputs that exist, an operator is rewired. -/
theorem rewire_of_known_inputs {op : Operator} (found : g.operators[id.index]? = some op)
    (old : ∀ a ∈ op.inputs, a.index < g.operands.length) :
    ∃ h, g.rewire id inputs = .ok h ∧ g.rewireInPlace id inputs = ⟨h, .ok ()⟩ := by
  have below := (List.getElem?_eq_some_iff.1 found).1
  have located := (g.operator_eq_ok_iff id op).2 found
  refine ⟨((g.detach id op.inputs).attach id inputs).withInputs id inputs, ?_, ?_⟩
  · have free : op.inputs.findSome? g.detachFault? = none :=
      List.findSome?_eq_none_iff.2 fun a mem => (g.detachFault?_eq_none_iff a).2 (old a mem)
    rw [rewire, known, located, bind_ok, free]
    simp [withoutFault, modifyOperator, below, withInputs]
  · rw [rewireInPlace, known, located]
    simp only
    rw [detachInPlace_of_known (g := g.withInputs id []) old]
    simp only [detach_withInputs, attach_withInputs, withInputs_withInputs]

/-- An old input that does not exist tears the graph. -/
theorem rewire_of_missing_input {op : Operator} (found : g.operators[id.index]? = some op)
    {before after : List OperandId} {a : OperandId} (split : op.inputs = before ++ a :: after)
    (old : ∀ b ∈ before, b.index < g.operands.length) (missing : g.operands.length ≤ a.index) :
    g.rewire id inputs = .error (.abort (.indexOutOfBounds g.operands.length a.index)) ∧
      g.rewireInPlace id inputs = ⟨(g.detach id before).withInputs id [],
        .error (.abort (.indexOutOfBounds g.operands.length a.index))⟩ := by
  have located := (g.operator_eq_ok_iff id op).2 found
  constructor
  · have fault : op.inputs.findSome? g.detachFault? =
        some (.abort (.indexOutOfBounds g.operands.length a.index)) := by
      refine List.findSome?_eq_some_iff.2 ⟨before, a, after, split, ?_, ?_⟩
      · simp [detachFault?, Nat.not_lt.2 missing]
      · exact fun b mem => (g.detachFault?_eq_none_iff b).2 (old b mem)
    rw [rewire, known, located, bind_ok, fault]
    rfl
  · rw [rewireInPlace, known, located]
    simp only
    rw [split, detachInPlace_of_missing (g := g.withInputs id []) old missing after,
      detach_withInputs]
    rfl

end Known

/-- A graph in which an operator has given up its inputs is another one. -/
theorem withInputs_nil_ne {g h : Graph} {id : OperatorId} {op : Operator}
    (found : g.operators[id.index]? = some op) (some_input : op.inputs ≠ [])
    (operators : h.operators = g.operators) : h.withInputs id [] ≠ g := by
  intro same
  have changed : (h.withInputs id []).operators[id.index]? = some { op with inputs := [] } := by
    simp [withInputs, operators, found]
  rw [same, found] at changed
  exact some_input (congrArg Operator.inputs (Option.some.inj changed))

/-- A rewiring ends in one of three ways.  It is done if the operator, its old inputs and its new
inputs exist.  It is refused with an error, and the graph is the one it was, if the operator or one
of the new inputs does not exist.  And if only an old input does not exist, it aborts at the first such
input: the graph is left with an operator that has lost all its inputs, while only the old inputs before
that one have lost their records. -/
theorem rewireInPlace_done_refused_or_torn (g : Graph) (id : OperatorId)
    (inputs : List OperandId) :
    (∃ op h, g.operators[id.index]? = some op ∧
      (∀ a ∈ inputs ++ op.inputs, a.index < g.operands.length) ∧
      g.rewire id inputs = .ok h ∧ g.rewireInPlace id inputs = ⟨h, .ok ()⟩) ∨
    (∃ error : Error, (g.operators[id.index]? = none ∨ ∃ a ∈ inputs, g.operands.length ≤ a.index) ∧
      error.category = .invalidGraph ∧ g.rewire id inputs = .error error ∧
      g.rewireInPlace id inputs = ⟨g, .error error⟩) ∨
    (∃ op before a after, g.operators[id.index]? = some op ∧ op.inputs = before ++ a :: after ∧
      (∀ b ∈ inputs ++ before, b.index < g.operands.length) ∧ g.operands.length ≤ a.index ∧
      g.rewire id inputs = .error (.abort (.indexOutOfBounds g.operands.length a.index)) ∧
      g.rewireInPlace id inputs = ⟨(g.detach id before).withInputs id [],
        .error (.abort (.indexOutOfBounds g.operands.length a.index))⟩ ∧
      (g.rewireInPlace id inputs).graph ≠ g) := by
  cases new : inputs.findSome? g.missingOperand? with
  | some fault =>
    obtain ⟨result, inPlace, category, missing⟩ := rewire_of_missing new id
    exact .inr (.inl ⟨fault, .inr missing, category, result, inPlace⟩)
  | none =>
    have known : ∀ a ∈ inputs, a.index < g.operands.length := fun a mem =>
      (g.missingOperand?_eq_none_iff a).1 (List.findSome?_eq_none_iff.1 new a mem)
    cases found : g.operators[id.index]? with
    | none =>
      obtain ⟨result, inPlace⟩ := rewire_of_unknown_operator new found
      exact .inr (.inl ⟨_, .inl rfl, rfl, result, inPlace⟩)
    | some op =>
      cases old : op.inputs.findSome? g.detachFault? with
      | none =>
        have old : ∀ a ∈ op.inputs, a.index < g.operands.length := fun a mem =>
          (g.detachFault?_eq_none_iff a).1 (List.findSome?_eq_none_iff.1 old a mem)
        obtain ⟨h, result, inPlace⟩ := rewire_of_known_inputs new found old
        refine .inl ⟨op, h, rfl, fun a mem => ?_, result, inPlace⟩
        exact (List.mem_append.1 mem).elim (known a) (old a)
      | some fault =>
        obtain ⟨before, a, after, split, missing, first⟩ := List.findSome?_eq_some_iff.1 old
        have missing : g.operands.length ≤ a.index := by
          by_contra below
          rw [(g.detachFault?_eq_none_iff a).2 (Nat.not_le.1 below)] at missing
          cases missing
        have first : ∀ b ∈ before, b.index < g.operands.length := fun b mem =>
          (g.detachFault?_eq_none_iff b).1 (first b mem)
        obtain ⟨result, inPlace⟩ := rewire_of_missing_input new found split first missing
        refine .inr (.inr ⟨op, before, a, after, rfl, split, fun b mem => ?_, missing, result,
          inPlace, ?_⟩)
        · exact (List.mem_append.1 mem).elim (known b) (first b)
        · rw [inPlace]
          exact withInputs_nil_ne found (by simp [split]) (operators_detach g id before)

/-- An operator whose inputs are changed to an operand that does not exist, after one that does:
rewiring it aborts, takes its inputs away and strikes the record of the first one. -/
theorem rewireInPlace_of_changed_inputs :
    ∃ g h k, (empty.pushOperands ["x", "y"]).1.pushOperator
        { kind := .input, name := "in", outputs := [⟨0⟩] } = .ok (g, ⟨0⟩) ∧
      g.pushOperator { kind := .detach, name := "cut", inputs := [⟨0⟩], outputs := [⟨1⟩] } =
        .ok (h, ⟨1⟩) ∧
      h.modifyOperator ⟨1⟩ (fun op => { op with inputs := [⟨0⟩, ⟨42⟩] }) = .ok k ∧
      k.rewire ⟨1⟩ [⟨0⟩] = .error (.abort (.indexOutOfBounds 2 42)) ∧
      (k.rewireInPlace ⟨1⟩ [⟨0⟩]).result = .error (.abort (.indexOutOfBounds 2 42)) ∧
      (k.rewireInPlace ⟨1⟩ [⟨0⟩]).graph ≠ k ∧
      (k.operators.map Operator.inputs, k.operands.map Operand.consumers) =
        ([[], [⟨0⟩, ⟨42⟩]], [[⟨1⟩], []]) ∧
      ((k.rewireInPlace ⟨1⟩ [⟨0⟩]).graph.operators.map Operator.inputs,
        (k.rewireInPlace ⟨1⟩ [⟨0⟩]).graph.operands.map Operand.consumers) =
        ([[], []], [[], []]) :=
  ⟨_, _, _, rfl, rfl, rfl, rfl, rfl, by decide, rfl, rfl⟩

end Graph

end FormulaFusion
