import Mathlib.Data.List.Basic
import FormulaFusion.Proofs.Success
import FormulaFusion.Graph.Basic

/-!
# What edits do to a graph

For every way to change a graph, the operators and operands that stand in the changed graph at each
position, and the conditions under which the change succeeds.  Attaching and detaching change only
consumers, producing changes only producers, and none of them touches the operators.
-/

namespace FormulaFusion

theorem OperandId.eq_of_index {a b : OperandId} (same : a.index = b.index) : a = b := by
  cases a
  cases b
  exact congrArg _ same

theorem OperatorId.eq_of_index {p q : OperatorId} (same : p.index = q.index) : p = q := by
  cases p
  cases q
  exact congrArg _ same

namespace Graph

/-! ## Links of single operands -/

theorem getElem?_operands_modifyOperand (g : Graph) (id : OperandId) (f : Operand → Operand)
    (i : Nat) : (g.modifyOperand id f).operands[i]? =
      if id.index = i then g.operands[i]?.map f else g.operands[i]? := by
  rw [modifyOperand, List.getElem?_modify]
  split_ifs <;> simp

/-- Attaching adds one record for every time the operand is named. -/
theorem getElem?_operands_attach (g : Graph) (id : OperatorId) (inputs : List OperandId) (i : Nat) :
    (g.attach id inputs).operands[i]? = g.operands[i]?.map fun operand =>
      { operand with consumers := operand.consumers ++ List.replicate (inputs.count ⟨i⟩) id } := by
  unfold attach
  induction inputs generalizing g with
  | nil => simp
  | cons input rest ih =>
    rw [List.foldl_cons, ih, getElem?_operands_modifyOperand, List.count_cons]
    by_cases here : input.index = i
    · obtain rfl : input = ⟨i⟩ := by cases input; simp_all
      simp [Function.comp_def, ← List.replicate_succ]
    · have other : input ≠ ⟨i⟩ := by
        rintro rfl
        exact here rfl
      simp [here, other]

/-- Detaching strikes one record for every time the operand is named. -/
theorem getElem?_operands_detach (g : Graph) (id : OperatorId) (inputs : List OperandId) (i : Nat) :
    (g.detach id inputs).operands[i]? = g.operands[i]?.map fun operand =>
      { operand with
        consumers := operand.consumers.diff (List.replicate (inputs.count ⟨i⟩) id) } := by
  unfold detach
  induction inputs generalizing g with
  | nil => simp
  | cons input rest ih =>
    rw [List.foldl_cons, ih, getElem?_operands_modifyOperand, List.count_cons]
    by_cases here : input.index = i
    · obtain rfl : input = ⟨i⟩ := by cases input; simp_all
      simp [Function.comp_def, List.replicate_succ, List.diff_cons]
    · have other : input ≠ ⟨i⟩ := by
        rintro rfl
        exact here rfl
      simp [here, other]

theorem getElem?_operands_produce (g : Graph) (id : OperatorId) (outputs : List OperandId)
    (i : Nat) : (g.produce id outputs).operands[i]? = g.operands[i]?.map fun operand =>
      if ⟨i⟩ ∈ outputs then { operand with producer := some id } else operand := by
  unfold produce
  induction outputs generalizing g with
  | nil => simp
  | cons output rest ih =>
    rw [List.foldl_cons, ih, getElem?_operands_modifyOperand]
    by_cases here : output.index = i
    · obtain rfl : output = ⟨i⟩ := by cases output; simp_all
      simp [Function.comp_def]
    · have other : (⟨i⟩ : OperandId) ≠ output := by
        rintro rfl
        exact here rfl
      simp [here, other]

theorem length_operands_foldl_modifyOperand (g : Graph) (f : Operand → Operand)
    (ids : List OperandId) :
    (ids.foldl (fun g id => g.modifyOperand id f) g).operands.length = g.operands.length := by
  induction ids generalizing g with
  | nil => rfl
  | cons id rest ih => rw [List.foldl_cons, ih, length_operands_modifyOperand]

@[simp]
theorem length_operands_attach (g : Graph) (id : OperatorId) (inputs : List OperandId) :
    (g.attach id inputs).operands.length = g.operands.length :=
  length_operands_foldl_modifyOperand g _ inputs

@[simp]
theorem length_operands_detach (g : Graph) (id : OperatorId) (inputs : List OperandId) :
    (g.detach id inputs).operands.length = g.operands.length :=
  length_operands_foldl_modifyOperand g _ inputs

@[simp]
theorem length_operands_produce (g : Graph) (id : OperatorId) (outputs : List OperandId) :
    (g.produce id outputs).operands.length = g.operands.length :=
  length_operands_foldl_modifyOperand g _ outputs

/-! ## Producers -/

/-- The producer of an operand depends on the operand's name and on the producer it records. -/
theorem producer_congr {g h : Graph}
    (same : ∀ i : Nat, (h.operands[i]?).map (fun operand => (operand.name, operand.producer)) =
      (g.operands[i]?).map fun operand => (operand.name, operand.producer)) (a : OperandId) :
    h.producer a = g.producer a := by
  have key : ∀ k : Graph, k.producer a =
      match (k.operands[a.index]?).map fun operand => (operand.name, operand.producer) with
      | some (_, some p) => .ok p
      | some (name, none) => .error (.noProducer name)
      | none => .error (.operandNotFound a) := by
    intro k
    unfold producer Graph.operand
    cases k.operands[a.index]? with
    | none => rfl
    | some operand => cases h : operand.producer <;> simp [bind_ok, h]
  rw [key, key, same]

/-! ## Operators -/

theorem modifyOperator_eq_ok_iff (g h : Graph) (id : OperatorId) (f : Operator → Operator) :
    g.modifyOperator id f = .ok h ↔ ∃ op, g.operators[id.index]? = some op ∧
      h = { g with operators := g.operators.set id.index (f op) } := by
  unfold modifyOperator
  by_cases known : id.index < g.operators.length
  · simp [known, List.modify_eq_set_getElem?, eq_comm]
  · simp [known]

theorem rewire_eq_ok_iff (g h : Graph) (id : OperatorId) (inputs : List OperandId) :
    g.rewire id inputs = .ok h ↔ ∃ op, g.operators[id.index]? = some op ∧
      (∀ a ∈ inputs, a.index < g.operands.length) ∧
      (∀ a ∈ op.inputs, a.index < g.operands.length) ∧
      h = { operators := g.operators.set id.index { op with inputs := inputs }
            operands := ((g.detach id op.inputs).attach id inputs).operands } := by
  unfold rewire
  simp only [bind_eq_ok_iff, withoutFault_eq_ok_iff, operator_eq_ok_iff, List.findSome?_eq_none_iff,
    missingOperand?_eq_none_iff, detachFault?_eq_none_iff, modifyOperator_eq_ok_iff,
    operators_attach, operators_detach, and_true]
  constructor
  · rintro ⟨-, known, op, found, -, old, op', found', rfl⟩
    obtain rfl : op = op' := Option.some.inj (found.symm.trans found')
    exact ⟨op, found, known, old, rfl⟩
  · rintro ⟨op, found, known, old, rfl⟩
    exact ⟨(), known, op, found, (), old, op, found, rfl⟩

/-- A new operator is recorded as the producer of its outputs; all other records stay. -/
theorem producer_produce_attach (g : Graph) (operators : List Operator) (id : OperatorId)
    (op : Operator) (known : ∀ b ∈ op.outputs, ∃ operand, g.operands[b.index]? = some operand)
    (a : OperandId) (p : OperatorId) :
    Graph.producer { operators := operators
                     operands := ((g.produce id op.outputs).attach id op.inputs).operands } a =
        .ok p ↔
      a ∈ op.outputs ∧ p = id ∨ a ∉ op.outputs ∧ g.producer a = .ok p := by
  rw [producer_eq_ok_iff, producer_eq_ok_iff, getElem?_operands_attach, getElem?_operands_produce]
  by_cases mem : a ∈ op.outputs
  · obtain ⟨operand, found⟩ := known a mem
    simp [found, mem, eq_comm]
  · cases g.operands[a.index]? <;> simp [mem]

theorem pushOperator_eq_ok_iff (g h : Graph) (op : Operator) (id : OperatorId) :
    g.pushOperator op = .ok (h, id) ↔
      (∀ a ∈ op.inputs, a.index < g.operands.length) ∧
      (∀ a ∈ op.outputs, ∃ operand, g.operands[a.index]? = some operand ∧
        operand.producer = none) ∧
      id = ⟨g.operators.length⟩ ∧
      h = { operators := g.operators ++ [op]
            operands := ((g.produce id op.outputs).attach id op.inputs).operands } := by
  have fault : ∀ a, g.produceFault? a = none ↔
      ∃ operand, g.operands[a.index]? = some operand ∧ operand.producer = none := by
    intro a
    unfold produceFault?
    cases g.operands[a.index]? <;> simp
  unfold pushOperator
  simp only [withoutFault_eq_ok_iff, Option.or_eq_none_iff, List.findSome?_eq_none_iff,
    missingOperand?_eq_none_iff, fault, Prod.mk.injEq]
  constructor
  · rintro ⟨⟨inputs, outputs⟩, rfl, rfl⟩
    exact ⟨inputs, outputs, rfl, rfl⟩
  · rintro ⟨inputs, outputs, rfl, rfl⟩
    exact ⟨⟨inputs, outputs⟩, rfl, rfl⟩

end Graph

end FormulaFusion
