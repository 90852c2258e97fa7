import FormulaFusion.Validation
import FormulaFusion.Proofs.Graph.Dependency
import FormulaFusion.Proofs.Graph.Linked
import FormulaFusion.Proofs.Precedence.Cycle

/-!
# What validation accepts

`Graph.validate` accepts exactly the `Valid` graphs (`Graph.validate_eq_ok_iff`): operators agree with
the records (`Graph.verifyLinks_eq_ok_iff`), every operand has a producer, every operator has the
inputs, outputs and value that its kind asks for, and no operator depends on itself
(`Graph.exists_evaluationOrder_iff`).  Agreement of operators with the records is less than being
linked: an operand may record a producer that does not list it
(`Graph.verifyLinks_eq_ok_of_unlisted`).
-/

open Relation

namespace FormulaFusion

/-- An operator has no fault if it has the inputs, the outputs and the value that its kind asks
for. -/
theorem Operator.fault?_eq_none_iff (op : Operator) :
    op.fault? = none ↔ op.kind.arity.accepts op.inputs.length = true ∧
      (op.kind.isInlinable = true → op.outputs ≠ []) ∧
      (op.kind = .constant → ∃ value, op.value = .ok value) := by
  have valued : (∃ value, op.value = .ok value) ↔ op.params.get? "value" ≠ none := by
    unfold Operator.value
    cases op.params.get? "value" <;> simp
  rw [valued]
  unfold Operator.fault?
  split_ifs with arity outputs value <;> simp_all

namespace Graph

/-! ## Links -/

/-- An operator is expected as a consumer once for every slot that names the operand. -/
theorem count_expectedConsumers (g : Graph) (a : OperandId) (q : OperatorId) :
    (g.expectedConsumers a).count q = g.uses q a := by
  obtain ⟨operators, operands⟩ := g
  unfold expectedConsumers uses
  induction operators using List.reverseRecOn with
  | nil => rfl
  | append_singleton operators op ih =>
    rw [List.zipIdx_append, List.flatMap_append, List.count_append, ih]
    simp only [List.zipIdx_singleton, List.flatMap_singleton, List.count_replicate, Nat.zero_add]
    rcases Nat.lt_trichotomy q.index operators.length with below | here | above
    · have apart : OperatorId.mk operators.length ≠ q := by
        rintro rfl
        exact absurd below (lt_irrefl _)
      simp [List.getElem?_append_left below, apart]
    · obtain rfl : q = ⟨operators.length⟩ := OperatorId.eq_of_index here
      simp
    · have apart : OperatorId.mk operators.length ≠ q := by
        rintro rfl
        exact absurd above (lt_irrefl _)
      rw [List.getElem?_eq_none (by omega), List.getElem?_eq_none (by simp; omega)]
      simp [apart]

/-- The check of the links finds no fault exactly if operators and records agree. -/
theorem linkFault?_eq_none_iff (g : Graph) : g.linkFault? = none ↔ g.Agrees := by
  simp only [linkFault?, operatorFault?, Option.or_eq_none_iff, List.findSome?_eq_none_iff,
    Prod.forall, List.mk_mem_zipIdx_iff_getElem?, missingOperand?_eq_none_iff,
    outputFault?_eq_none_iff, consumerFault?_eq_none_iff, List.perm_iff_count,
    count_expectedConsumers, ← producer_eq_ok_iff]
  constructor
  · rintro ⟨operators, operands⟩
    refine ⟨fun found => (operators _ _ found).1, ?_, fun found => operands _ _ found⟩
    rintro a p ⟨op, found, mem⟩
    exact (operators op p.index found).2 a mem
  · intro agrees
    refine ⟨fun op index found => ⟨agrees.input_known found, fun a mem => ?_⟩,
      fun operand index found => agrees.consumers (a := ⟨index⟩) found⟩
    exact agrees.producer ⟨op, found, mem⟩

theorem verifyLinks_eq_ok_iff (g : Graph) : g.verifyLinks = .ok () ↔ g.Agrees := by
  rw [verifyLinks, withoutFault_eq_ok_iff, linkFault?_eq_none_iff, and_iff_left rfl]

/-- The check of the links accepts a graph exactly if all inputs exist, all outputs exist and record
their operator as producer, and every operand has one consumer entry for every input slot that names
it.  It does not ask whether a recorded producer lists the operand: this is what a graph that it
accepts may lack of being linked. -/
theorem verifyLinks_eq_ok_iff_recorded (g : Graph) :
    (g.verifyLinks = .ok () ↔
      (∀ (q : OperatorId) (op : Operator), g.operators[q.index]? = some op →
        (∀ a ∈ op.inputs, a.index < g.operands.length) ∧
        ∀ a ∈ op.outputs, ∃ operand, g.operands[a.index]? = some operand ∧
          operand.producer = some q) ∧
      ∀ (a : OperandId) (operand : Operand), g.operands[a.index]? = some operand →
        ∀ q, operand.consumers.count q = g.uses q a) ∧
    (g.Linked ↔ g.verifyLinks = .ok () ∧ ∀ a p, g.producer a = .ok p → g.Lists p a) := by
  refine ⟨?_, by rw [linked_iff, verifyLinks_eq_ok_iff]⟩
  rw [verifyLinks_eq_ok_iff]
  constructor
  · intro agrees
    refine ⟨fun q op found => ⟨agrees.input_known found, fun a mem => ?_⟩,
      fun a operand found => agrees.consumers found⟩
    exact (g.producer_eq_ok_iff a q).1 (agrees.producer ⟨op, found, mem⟩)
  · rintro ⟨operators, operands⟩
    refine ⟨fun found => (operators ⟨_⟩ _ found).1, ?_, fun found => operands _ _ found⟩
    rintro a p ⟨op, found, mem⟩
    exact (g.producer_eq_ok_iff a p).2 ((operators p op found).2 a mem)

/-- An operator that lists its output no more: the check accepts the graph, although the operand still
records the operator as its producer. -/
theorem verifyLinks_eq_ok_of_unlisted :
    ∃ g h, (empty.pushOperand "x").1.pushOperator
        { kind := .input, name := "in", outputs := [⟨0⟩] } = .ok (g, ⟨0⟩) ∧
      g.modifyOperator ⟨0⟩ (fun op => { op with outputs := [] }) = .ok h ∧
      h.verifyLinks = .ok () ∧ h.producer ⟨0⟩ = .ok ⟨0⟩ ∧ ¬h.Lists ⟨0⟩ ⟨0⟩ ∧ ¬h.Linked := by
  refine ⟨_, _, rfl, rfl, rfl, rfl, ?unlisted, ?unlinked⟩
  case unlisted =>
    rintro ⟨op, found, mem⟩
    obtain rfl := Option.some.inj found
    cases mem
  case unlinked =>
    intro linked
    obtain ⟨op, found, mem⟩ := ((linked_iff _).1 linked).2 ⟨0⟩ ⟨0⟩ rfl
    obtain rfl := Option.some.inj found
    cases mem

/-! ## Topological order -/

/-- The inputs of all operators are produced by operators of the graph. -/
def Sourced (g : Graph) : Prop := ∀ op ∈ g.operators, ∀ a ∈ op.inputs, ∃ op', g.source a = .ok op'

theorem Sourced.lt_of_reads {g : Graph} (sourced : g.Sourced) {q p : OperatorId}
    (reads : g.Reads q p) : p.index < g.operators.length := by
  obtain ⟨op, input, found, mem, producer⟩ := reads
  obtain ⟨op', source⟩ := sourced op (List.mem_of_getElem? found) input mem
  obtain ⟨r, producer', found'⟩ := (g.source_eq_ok_iff input op').1 source
  obtain rfl : p = r := Except.ok.inj (producer.symm.trans producer')
  exact (List.getElem?_eq_some_iff.1 found').1

theorem placedProducer_eq_ok_iff (g : Graph) (a : OperandId) (p : OperatorId) :
    g.placedProducer a = .ok p ↔ g.producer a = .ok p ∧ p.index < g.operators.length := by
  simp only [placedProducer, bind_eq_ok_iff, ite_eq_iff, Except.ok.injEq, reduceCtorEq, and_false,
    or_false]
  constructor
  · rintro ⟨p, producer, below, rfl⟩
    exact ⟨producer, below⟩
  · rintro ⟨producer, below⟩
    exact ⟨p, producer, below, rfl⟩

theorem exists_placedProducer_iff (g : Graph) (a : OperandId) :
    (∃ p, g.placedProducer a = .ok p) ↔ ∃ op, g.source a = .ok op := by
  simp only [placedProducer_eq_ok_iff, source_eq_ok_iff]
  constructor
  · rintro ⟨p, producer, below⟩
    exact ⟨_, p, producer, List.getElem?_eq_getElem below⟩
  · rintro ⟨op, p, producer, found⟩
    exact ⟨p, producer, (List.getElem?_eq_some_iff.1 found).1⟩

/-- The input slots of a graph with the operators that they belong to. -/
theorem mem_slots_iff (g : Graph) (input : OperandId) (q : OperatorId) :
    (input, q) ∈ (g.operators.zipIdx.flatMap fun (op, index) =>
      op.inputs.map fun input => (input, OperatorId.mk index)) ↔
      ∃ op, g.operators[q.index]? = some op ∧ input ∈ op.inputs := by
  simp only [List.mem_flatMap, List.mem_map, Prod.exists, List.mk_mem_zipIdx_iff_getElem?,
    Prod.mk.injEq]
  constructor
  · rintro ⟨op, index, found, _, mem, rfl, rfl⟩
    exact ⟨op, found, mem⟩
  · rintro ⟨op, found, mem⟩
    exact ⟨op, q.index, found, input, mem, rfl, rfl⟩

theorem exists_dependencies_iff (g : Graph) :
    (∃ pairs, g.dependencies = .ok pairs) ↔ g.Sourced := by
  constructor
  · rintro ⟨pairs, dependencies⟩ op mem a input
    obtain ⟨q, found⟩ := List.getElem?_of_mem mem
    obtain ⟨_, -, step⟩ := exists_of_mapM_eq_ok dependencies
      ((g.mem_slots_iff a ⟨q⟩).2 ⟨op, found, input⟩)
    obtain ⟨p, placed, -⟩ := (map_eq_ok_iff _ _ _).1 step
    exact (g.exists_placedProducer_iff a).1 ⟨p, placed⟩
  · intro sourced
    refine exists_mapM_eq_ok _ _ ?_
    rintro ⟨a, q⟩ slot
    obtain ⟨op, found, input⟩ := (g.mem_slots_iff a q).1 slot
    obtain ⟨p, placed⟩ := (g.exists_placedProducer_iff a).2
      (sourced op (List.mem_of_getElem? found) a input)
    exact ⟨_, (map_eq_ok_iff _ _ _).2 ⟨p, placed, rfl⟩⟩

/-- The pairs that are sorted are those of an operator and a producer of its inputs. -/
theorem mem_dependencies_iff {g : Graph} {pairs : List (OperatorId × OperatorId)}
    (dependencies : g.dependencies = .ok pairs) (p q : OperatorId) :
    (p, q) ∈ pairs ↔ g.Reads q p := by
  have steps := (mapM_eq_ok_iff _ _ _).1 dependencies
  constructor
  · intro pair
    obtain ⟨⟨input, consumer⟩, slot, step⟩ := exists_left_of_forall₂ steps pair
    obtain ⟨r, placed, same⟩ := (map_eq_ok_iff _ _ _).1 step
    obtain ⟨rfl, rfl⟩ := Prod.mk.inj same
    obtain ⟨op, found, mem⟩ := (g.mem_slots_iff _ _).1 slot
    exact ⟨op, input, found, mem, ((g.placedProducer_eq_ok_iff _ _).1 placed).1⟩
  · rintro ⟨op, input, found, mem, producer⟩
    obtain ⟨pair, listed, step⟩ := exists_right_of_forall₂ steps
      ((g.mem_slots_iff input q).2 ⟨op, found, mem⟩)
    obtain ⟨r, placed, rfl⟩ := (map_eq_ok_iff _ _ _).1 step
    obtain rfl : p = r :=
      Except.ok.inj (producer.symm.trans ((g.placedProducer_eq_ok_iff _ _).1 placed).1)
    exact listed

theorem evaluationOrder_eq_ok_iff (g : Graph) (order : List OperatorId) :
    g.evaluationOrder = .ok order ↔ ∃ pairs, g.dependencies = .ok pairs ∧
      (Precedence.mk g.operatorIds pairs).sort = .ok order := by
  rw [evaluationOrder, bind_eq_ok_iff]
  refine exists_congr fun pairs => and_congr_right fun _ => ?_
  cases (Precedence.mk g.operatorIds pairs).sort <;> simp

theorem mem_operatorIds_iff (g : Graph) (p : OperatorId) :
    p ∈ g.operatorIds ↔ p.index < g.operators.length := by
  constructor
  · intro mem
    obtain ⟨index, inside, rfl⟩ := List.mem_map.1 mem
    exact List.mem_range.1 inside
  · intro below
    exact List.mem_map.2 ⟨p.index, List.mem_range.2 below, rfl⟩

/-- In an evaluation order every operator stands after those that it reads. -/
theorem idxOf_lt_idxOf_of_reads {g : Graph} {order : List OperatorId}
    (ordered : g.evaluationOrder = .ok order) {q p : OperatorId} (reads : g.Reads q p) :
    order.idxOf p < order.idxOf q := by
  obtain ⟨pairs, dependencies, sorted⟩ := (g.evaluationOrder_eq_ok_iff order).1 ordered
  have pair := (mem_dependencies_iff dependencies p q).2 reads
  obtain ⟨op, -, found, -⟩ := reads
  exact Precedence.idxOf_lt_idxOf_of_sort sorted pair
    ((g.mem_operatorIds_iff q).2 (List.getElem?_eq_some_iff.1 found).1)

theorem acyclic_of_evaluationOrder {g : Graph} {order : List OperatorId}
    (ordered : g.evaluationOrder = .ok order) : g.Acyclic := by
  intro p cycle
  exact lt_irrefl _ (lt_of_dependsOn (fun _ _ => idxOf_lt_idxOf_of_reads ordered) cycle)

/-- What leads to an operator through sorted pairs is an operator that it depends on. -/
theorem dependsOn_of_leads {g : Graph} {pairs : List (OperatorId × OperatorId)}
    (dependencies : g.dependencies = .ok pairs) {p q : OperatorId}
    (leads : (Precedence.mk g.operatorIds pairs).Leads p q) : g.DependsOn q p := by
  induction leads with
  | single pair => exact .single ((mem_dependencies_iff dependencies _ _).1 pair)
  | tail _ pair ih => exact .head ((mem_dependencies_iff dependencies _ _).1 pair) ih

/-- Dependencies relate operators of the graph. -/
theorem Sourced.closed_dependencies {g : Graph} (sourced : g.Sourced)
    {pairs : List (OperatorId × OperatorId)} (dependencies : g.dependencies = .ok pairs) :
    (Precedence.mk g.operatorIds pairs).Closed := by
  rintro ⟨p, q⟩ pair
  have reads := (mem_dependencies_iff dependencies p q).1 pair
  refine ⟨(g.mem_operatorIds_iff p).2 (sourced.lt_of_reads reads), ?_⟩
  obtain ⟨op, -, found, -⟩ := reads
  exact (g.mem_operatorIds_iff q).2 (List.getElem?_eq_some_iff.1 found).1

/-- Operators whose inputs are produced in the graph can be ordered exactly if none depends on
itself. -/
theorem exists_evaluationOrder_iff (g : Graph) :
    (∃ order, g.evaluationOrder = .ok order) ↔ g.Sourced ∧ g.Acyclic := by
  constructor
  · rintro ⟨order, ordered⟩
    obtain ⟨pairs, dependencies, -⟩ := (g.evaluationOrder_eq_ok_iff order).1 ordered
    exact ⟨g.exists_dependencies_iff.1 ⟨pairs, dependencies⟩, acyclic_of_evaluationOrder ordered⟩
  · rintro ⟨sourced, acyclic⟩
    obtain ⟨pairs, dependencies⟩ := g.exists_dependencies_iff.2 sourced
    obtain ⟨order, sorted⟩ := Precedence.exists_sort_eq_ok (sourced.closed_dependencies dependencies)
      fun p cycle => acyclic p (dependsOn_of_leads dependencies cycle)
    exact ⟨order, (g.evaluationOrder_eq_ok_iff order).2 ⟨pairs, dependencies, sorted⟩⟩

/-! ## Validity -/

/-- What validation asks of a graph. -/
structure Valid (g : Graph) : Prop where
  agrees : g.Agrees
  produced : ∀ a : OperandId, a.index < g.operands.length → ∃ p, g.producer a = .ok p
  arity : ∀ op ∈ g.operators, op.kind.arity.accepts op.inputs.length = true
  outputs : ∀ op ∈ g.operators, op.kind.isInlinable = true → op.outputs ≠ []
  valued : ∀ op ∈ g.operators, op.kind = .constant → ∃ value, op.value = .ok value
  sourced : g.Sourced
  acyclic : g.Acyclic

theorem findSome?_fault?_eq_none_iff (g : Graph) :
    g.operands.findSome? Operand.fault? = none ↔
      ∀ a : OperandId, a.index < g.operands.length → ∃ p, g.producer a = .ok p := by
  have recorded : ∀ operand : Operand, operand.fault? = none ↔ ∃ p, operand.producer = some p := by
    intro operand
    unfold Operand.fault?
    cases operand.producer <;> simp
  simp only [List.findSome?_eq_none_iff, recorded, producer_eq_ok_iff]
  constructor
  · intro each a known
    obtain ⟨p, producer⟩ := each g.operands[a.index] (List.getElem_mem known)
    exact ⟨p, _, List.getElem?_eq_getElem known, producer⟩
  · intro each operand mem
    obtain ⟨i, found⟩ := List.getElem?_of_mem mem
    obtain ⟨p, operand', found', producer⟩ := each ⟨i⟩ (List.getElem?_eq_some_iff.1 found).1
    obtain rfl : operand = operand' := Option.some.inj (found.symm.trans found')
    exact ⟨p, producer⟩

/-- Validation accepts exactly the valid graphs. -/
theorem validate_eq_ok_iff (g : Graph) : g.validate = .ok () ↔ g.Valid := by
  have split : g.validate = .ok () ↔ g.fault? = none ∧ ∃ order, g.evaluationOrder = .ok order := by
    rw [validate, bind_eq_ok_iff]
    simp only [withoutFault_eq_ok_iff, map_eq_ok_iff, and_true]
    exact ⟨fun ⟨_, fine, ordered⟩ => ⟨fine, ordered⟩, fun ⟨fine, ordered⟩ => ⟨(), fine, ordered⟩⟩
  rw [split, fault?, Option.or_eq_none_iff, Option.or_eq_none_iff, linkFault?_eq_none_iff,
    findSome?_fault?_eq_none_iff, List.findSome?_eq_none_iff, exists_evaluationOrder_iff]
  simp only [Operator.fault?_eq_none_iff]
  constructor
  · rintro ⟨⟨agrees, produced, sound⟩, sourced, acyclic⟩
    exact ⟨agrees, produced, fun op mem => (sound op mem).1, fun op mem => (sound op mem).2.1,
      fun op mem => (sound op mem).2.2, sourced, acyclic⟩
  · intro valid
    exact ⟨⟨valid.agrees, valid.produced, fun op mem =>
      ⟨valid.arity op mem, valid.outputs op mem, valid.valued op mem⟩⟩, valid.sourced,
      valid.acyclic⟩

end Graph

end FormulaFusion
