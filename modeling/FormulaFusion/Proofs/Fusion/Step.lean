import FormulaFusion.Fusion
import FormulaFusion.Proofs.Expansion

/-!
# One step of fusion

What turning a single operator into an expression does to a graph (`Fusion.Step`): the operator gets
the frontier of its formula as inputs and the text as its parameter, every other operator and the
names and producers of all operands stay as they are.  A step adds no dependency
(`Step.dependsOn_of_reads`), so it keeps graphs well formed (`Step.wellFormed`); and in a well-formed
graph the step of a candidate never fails (`WellFormed.exists_fuseAt`).
-/

open Relation

namespace FormulaFusion

/-! ## Candidates -/

theorem Operator.isCandidate_iff (op : Operator) :
    op.isCandidate = true ↔ op.kind.isInlinable = true ∧
      (op.kind = .constant → ∀ parameter, op.value = .ok parameter →
        ∃ literal, parameter = .literal literal) := by
  cases kind : op.kind
  case constant =>
    simp only [isCandidate, kind, Kind.isInlinable, value, true_and, forall_const]
    cases op.params.get? "value" <;> simp [Parameter.isLiteral_iff]
  all_goals simp [isCandidate, kind, Kind.isInlinable]

/-- What a candidate's formula reads lies before the candidate. -/
theorem Graph.transGen_feeds_of_isCandidate {g : Graph} {foldable : List String} {a b : OperandId}
    {op : Operator} {formula : Formula OperandId} (candidate : op.isCandidate = true)
    (source : g.source a = .ok op) (expanded : g.expand foldable a = .ok formula)
    (slot : b ∈ formula.slots) : TransGen g.Feeds b a := by
  obtain ⟨kind, literal⟩ := op.isCandidate_iff.1 candidate
  refine transGen_feeds_of_mem_slots source kind (fun parameter constant value => ?_) expanded slot
  obtain ⟨scalar, rfl⟩ := literal constant parameter value
  simp [Parameter.literal?]

/-- Expressions are no candidates. -/
theorem Fusion.isCandidate_expression (f : Fusion) (number : Nat) (text : String) (op : Operator) :
    (f.expression number text op).isCandidate = false := rfl

@[simp]
theorem Fusion.get?_params_expression (f : Fusion) (number : Nat) (text : String) (op : Operator) :
    (f.expression number text op).params.get? "expr" = some (.literal (.string text)) := by
  simp [expression, Fields.get?_singleton]

theorem Graph.lastCandidate?_eq_some {g : Graph} {id : OperatorId}
    (last : g.lastCandidate? = some id) :
    ∃ op, g.operators[id.index]? = some op ∧ op.isCandidate = true ∧
      ∀ q op', id.index < q → g.operators[q]? = some op' → op'.isCandidate = false := by
  obtain ⟨⟨op, p⟩, found, rfl⟩ := Option.map_eq_some_iff.1 last
  rw [List.find?_eq_some_iff_append] at found
  obtain ⟨candidate, behind, before, split, others⟩ := found
  have order : g.operators.zipIdx = before.reverse ++ (op, p) :: behind.reverse := by
    have := congrArg List.reverse split
    simpa using this
  have place : g.operators[p]? = some op := by
    refine List.mk_mem_zipIdx_iff_getElem?.1 ?_
    rw [order]
    simp
  refine ⟨op, place, candidate, fun q op' above found' => ?_⟩
  -- Positions increase along the list, so everything above `p` was looked at before it.
  have increasing : g.operators.zipIdx.Pairwise fun x y => x.2 < y.2 := by
    rw [← List.pairwise_map (f := Prod.snd), List.zipIdx_map_snd]
    exact List.pairwise_lt_range'
  have mem : (op', q) ∈ g.operators.zipIdx := List.mk_mem_zipIdx_iff_getElem?.2 found'
  rw [order, List.pairwise_append] at increasing
  rw [order, List.mem_append, List.mem_cons, List.mem_reverse] at mem
  rcases mem with early | here | late
  · have := increasing.2.2 _ (List.mem_reverse.2 early) _ List.mem_cons_self
    simp only at this above
    omega
  · obtain ⟨-, rfl⟩ := Prod.mk.inj here
    exact absurd above (lt_irrefl _)
  · simpa using others _ (List.mem_reverse.1 late)

theorem Graph.lastCandidate?_eq_none {g : Graph} (none : g.lastCandidate? = none) :
    ∀ op ∈ g.operators, op.isCandidate = false := by
  intro op mem
  rw [lastCandidate?, Option.map_eq_none_iff, List.find?_eq_none] at none
  obtain ⟨p, found⟩ := List.getElem?_of_mem mem
  have := none (op, p) (List.mem_reverse.2 (List.mk_mem_zipIdx_iff_getElem?.2 found))
  simpa using this

/-! ## What a step does -/

namespace Fusion

/-- The graph `h` is `g` with the operator `op` at `id` turned into the expression that `fused`
gives. -/
structure Step (f : Fusion) (g : Graph) (id : OperatorId) (number : Nat) (op : Operator)
    (fused : FusedFormula) (h : Graph) : Prop where
  found : g.operators[id.index]? = some op
  formula : ∃ output ∈ op.outputs, op.outputs[0]? = some output ∧
    g.fusedFormula f.foldable output = .ok fused
  operators : h.operators =
    g.operators.set id.index (f.expression number fused.text { op with inputs := fused.inputs })
  length : h.operands.length = g.operands.length
  operands : ∀ i : Nat, (h.operands[i]?).map (fun operand => (operand.name, operand.producer)) =
    (g.operands[i]?).map fun operand => (operand.name, operand.producer)
  agrees : g.Agrees → h.Agrees
  linked : g.Linked → h.Linked

theorem fuseAt_eq_ok_iff (f : Fusion) (g h : Graph) (id : OperatorId) (number : Nat) :
    f.fuseAt g id number = .ok h ↔ ∃ op output fused middle, g.operators[id.index]? = some op ∧
      op.outputs[0]? = some output ∧ g.fusedFormula f.foldable output = .ok fused ∧
      g.rewire id fused.inputs = .ok middle ∧
      middle.modifyOperator id (f.expression number fused.text) = .ok h := by
  unfold fuseAt
  simp only [bind_eq_ok_iff, Graph.operator_eq_ok_iff, Operator.output_eq_ok_iff]
  constructor
  · rintro ⟨op, found, output, first, fused, formula, middle, rewired, modified⟩
    exact ⟨op, output, fused, middle, found, first, formula, rewired, modified⟩
  · rintro ⟨op, output, fused, middle, found, first, formula, rewired, modified⟩
    exact ⟨op, found, output, first, fused, formula, middle, rewired, modified⟩

theorem exists_step {f : Fusion} {g h : Graph} {id : OperatorId} {number : Nat}
    (run : f.fuseAt g id number = .ok h) : ∃ op fused, f.Step g id number op fused h := by
  obtain ⟨op, output, fused, middle, found, first, formula, rewired, modified⟩ :=
    (f.fuseAt_eq_ok_iff g h id number).1 run
  refine ⟨op, fused, found, ⟨output, List.mem_of_getElem? first, first, formula⟩,
    ?_, ?_, ?_, ?_, ?_⟩
  all_goals
    obtain ⟨op', found', -, -, shape⟩ := (g.rewire_eq_ok_iff middle id _).1 rewired
    obtain rfl : op = op' := Option.some.inj (found.symm.trans found')
    obtain ⟨op'', found'', rfl⟩ := (middle.modifyOperator_eq_ok_iff h id _).1 modified
  · have below := (List.getElem?_eq_some_iff.1 found).1
    obtain rfl : { op with inputs := fused.inputs } = op'' := by
      rw [shape] at found''
      simpa [below] using found''
    simp [shape, List.set_set]
  · simp [shape]
  · intro i
    rw [shape, Graph.getElem?_operands_attach, Graph.getElem?_operands_detach]
    cases g.operands[i]? <;> rfl
  · intro agrees
    exact (agrees.rewire rewired).modifyOperator (f := f.expression number fused.text)
      (fun _ => ⟨rfl, rfl⟩) modified
  · intro linked
    exact (linked.rewire rewired).modifyOperator (f := f.expression number fused.text)
      (fun _ => ⟨rfl, rfl⟩) modified

/-- Fusing the last candidate is a step of a candidate. -/
theorem exists_candidate_step {f : Fusion} {g h : Graph} {id : OperatorId} {number : Nat}
    (last : g.lastCandidate? = some id) (run : f.fuseAt g id number = .ok h) :
    ∃ op fused, op.isCandidate = true ∧ f.Step g id number op fused h := by
  obtain ⟨op, found, candidate, -⟩ := Graph.lastCandidate?_eq_some last
  obtain ⟨op', fused, step⟩ := exists_step run
  obtain rfl : op = op' := Option.some.inj (found.symm.trans step.found)
  exact ⟨op, fused, candidate, step⟩

namespace Step

variable {f : Fusion} {g h : Graph} {id : OperatorId} {number : Nat} {op : Operator}
  {fused : FusedFormula}

theorem getElem?_operators_self (step : f.Step g id number op fused h) :
    h.operators[id.index]? =
      some (f.expression number fused.text { op with inputs := fused.inputs }) := by
  have below := (List.getElem?_eq_some_iff.1 step.found).1
  simp [step.operators, below]

theorem getElem?_operators_of_ne (step : f.Step g id number op fused h) {q : Nat}
    (apart : q ≠ id.index) : h.operators[q]? = g.operators[q]? := by
  simp [step.operators, Ne.symm apart]

theorem length_operators (step : f.Step g id number op fused h) :
    h.operators.length = g.operators.length := by
  simp [step.operators]

theorem mem_operators (step : f.Step g id number op fused h) {op' : Operator}
    (mem : op' ∈ h.operators) :
    op' ∈ g.operators ∨
      op' = f.expression number fused.text { op with inputs := fused.inputs } := by
  rw [step.operators] at mem
  exact List.mem_or_eq_of_mem_set mem

theorem producer (step : f.Step g id number op fused h) (a : OperandId) :
    h.producer a = g.producer a :=
  Graph.producer_congr step.operands a

/-- The new inputs are the slots of the formula. -/
theorem mem_inputs_iff (step : f.Step g id number op fused h) :
    ∃ output ∈ op.outputs, ∃ formula, g.expand f.foldable output = .ok formula ∧
      ∀ a, a ∈ fused.inputs ↔ a ∈ formula.slots := by
  obtain ⟨output, mem, -, built⟩ := step.formula
  obtain ⟨formula, expanded, rfl⟩ := (map_eq_ok_iff _ _ _).1 built
  exact ⟨output, mem, formula, expanded, fun a => Frontier.mem_operands_ofList_iff _ a⟩

/-- A step adds no dependency. -/
theorem dependsOn_of_reads (step : f.Step g id number op fused h)
    (candidate : op.isCandidate = true) (recorded : ∀ a ∈ op.outputs, g.producer a = .ok id)
    {q p : OperatorId} (reads : h.Reads q p) : g.DependsOn q p := by
  obtain ⟨op', input, found, mem, producer⟩ := reads
  rw [step.producer] at producer
  by_cases here : q.index = id.index
  · obtain rfl : q = id := OperatorId.eq_of_index here
    rw [step.getElem?_operators_self, Option.some_inj] at found
    obtain ⟨output, output_mem, formula, expanded, slots⟩ := step.mem_inputs_iff
    have slot : input ∈ formula.slots := by
      rw [← slots, ← show op'.inputs = fused.inputs by rw [← found]; rfl]
      exact mem
    have source : g.source output = .ok op :=
      (g.source_eq_ok_iff output op).2 ⟨q, recorded output output_mem, step.found⟩
    have feeds := Graph.transGen_feeds_of_isCandidate candidate source expanded slot
    exact Graph.dependsOn_of_feeds feeds (recorded output output_mem) producer
  · rw [step.getElem?_operators_of_ne here] at found
    exact .single ⟨op', input, found, mem, producer⟩

theorem dependsOn (step : f.Step g id number op fused h) (candidate : op.isCandidate = true)
    (recorded : ∀ a ∈ op.outputs, g.producer a = .ok id) {q p : OperatorId}
    (depends : h.DependsOn q p) : g.DependsOn q p :=
  TransGen.closed (fun _ _ => step.dependsOn_of_reads candidate recorded) q p depends

/-- What has a producer before a step has one afterwards. -/
theorem exists_source (step : f.Step g id number op fused h) {a : OperandId} {op' : Operator}
    (source : g.source a = .ok op') : ∃ op'', h.source a = .ok op'' := by
  obtain ⟨p, producer, found⟩ := (g.source_eq_ok_iff a op').1 source
  have below : p.index < h.operators.length := by
    rw [step.length_operators]
    exact (List.getElem?_eq_some_iff.1 found).1
  exact ⟨_, (h.source_eq_ok_iff a _).2
    ⟨p, (step.producer a).trans producer, List.getElem?_eq_getElem below⟩⟩

/-- A step keeps all values computable. -/
theorem determined (step : f.Step g id number op fused h) (candidate : op.isCandidate = true)
    (agrees : g.Agrees) (determined : g.Determined) : h.Determined := by
  refine ⟨⟨?_, ?_, ?_⟩, ?_, ?_⟩
  · intro op' mem a input
    obtain ⟨q, found⟩ := List.getElem?_of_mem mem
    exact (step.agrees agrees).input_known found a input
  · intro a known
    rw [step.length] at known
    obtain ⟨op', source⟩ := determined.produced a known
    exact step.exists_source source
  · intro p cycle
    refine determined.acyclic p (step.dependsOn candidate (fun a mem => ?_) cycle)
    exact agrees.producer ⟨op, step.found, mem⟩
  · intro op' mem
    rcases step.mem_operators mem with old | rfl
    · exact determined.arity op' old
    · rfl
  · intro op' mem constant
    rcases step.mem_operators mem with old | rfl
    · exact determined.valued op' old constant
    · cases constant

/-- A step keeps graphs well formed. -/
theorem wellFormed (step : f.Step g id number op fused h) (candidate : op.isCandidate = true)
    (wellFormed : g.WellFormed) : h.WellFormed := by
  refine ⟨step.linked wellFormed.linked,
    step.determined candidate wellFormed.linked.toAgrees wellFormed.determined, ?_⟩
  intro op' mem inlinable
  rcases step.mem_operators mem with old | rfl
  · exact wellFormed.outputs op' old inlinable
  · cases inlinable

end Step

end Fusion

/-! ## Success of a step -/

theorem Graph.WellFormed.exists_fusedFormula {g : Graph} (wellFormed : g.WellFormed)
    (foldable : List String) {a : OperandId} (known : a.index < g.operands.length) :
    ∃ fused, g.fusedFormula foldable a = .ok fused := by
  obtain ⟨formula, expanded⟩ := wellFormed.exists_expand foldable known
  exact ⟨_, by rw [fusedFormula, expanded, map_ok]⟩

/-- The step of a candidate of a well-formed graph succeeds. -/
theorem Graph.WellFormed.exists_fuseAt {g : Graph} (wellFormed : g.WellFormed) (f : Fusion)
    {id : OperatorId} (number : Nat) {op : Operator} (found : g.operators[id.index]? = some op)
    (candidate : op.isCandidate = true) : ∃ h, f.fuseAt g id number = .ok h := by
  have mem := List.mem_of_getElem? found
  have inlinable := (op.isCandidate_iff.1 candidate).1
  obtain ⟨output, rest, outputs⟩ := List.exists_cons_of_ne_nil (wellFormed.outputs op mem inlinable)
  have producer : g.producer output = .ok id :=
    wellFormed.linked.producer_iff.2 ⟨op, found, by simp [outputs]⟩
  have source : g.source output = .ok op := (g.source_eq_ok_iff output op).2 ⟨id, producer, found⟩
  have known := index_lt_of_source source
  obtain ⟨fused, built⟩ := wellFormed.exists_fusedFormula f.foldable known
  have inputs_known : ∀ a ∈ fused.inputs, a.index < g.operands.length := by
    obtain ⟨formula, expanded, rfl⟩ := (map_eq_ok_iff _ _ _).1 built
    intro a slot
    have path := reflTransGen_feeds_of_mem_slots expanded
      ((Frontier.mem_operands_ofList_iff _ a).1 slot)
    rcases path.cases_head with rfl | ⟨b, feeds, -⟩
    · exact known
    · exact wellFormed.determined.known_of_feeds feeds
  obtain ⟨middle, rewired⟩ : ∃ middle, g.rewire id fused.inputs = .ok middle :=
    ⟨_, (g.rewire_eq_ok_iff _ id _).2 ⟨op, found, inputs_known,
      wellFormed.determined.input_known op mem, rfl⟩⟩
  obtain ⟨h, modified⟩ : ∃ h,
      middle.modifyOperator id (f.expression number fused.text) = .ok h := by
    obtain ⟨op', found', -, -, rfl⟩ := (g.rewire_eq_ok_iff middle id _).1 rewired
    have below := (List.getElem?_eq_some_iff.1 found').1
    exact ⟨_, (modifyOperator_eq_ok_iff ..).2
      ⟨{ op' with inputs := fused.inputs }, by simp [below], rfl⟩⟩
  exact ⟨h, (f.fuseAt_eq_ok_iff g h id number).2
    ⟨op, output, fused, middle, found, by rw [outputs]; rfl, built, rewired, modified⟩⟩

end FormulaFusion
