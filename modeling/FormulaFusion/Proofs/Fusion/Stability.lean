import Mathlib.Data.List.Perm.Subperm
import FormulaFusion.Proofs.Fusion.Run

/-!
# Stability of fusion

A step of fusion changes which operators consume which operands, and whether an operand is held back
depends on its consumers.  Still, when program order is topological, every operator is fused as the
graph before the run says (`Fusion.run_eq_original`).  The reason is what a run has done when it comes
to an operator (`Fusion.Progress`): everything before the operator is as it was, everything behind it
is fused as the first graph says.  An operand that was shared is a slot wherever it is read and so
keeps its consumers; an operand that becomes a slot of an operator behind was held back in the first
graph already.
-/

namespace FormulaFusion

/-- The inputs that a formula of the operator does not read come after the first one of a cast. -/
theorem Operator.mem_dataPositions {op : Operator} {index : Nat}
    (arity : op.kind.arity.accepts op.inputs.length = true) (kind : op.kind.isInlinable = true)
    (inside : index < op.inputs.length)
    (first : op.kind = .cast ∨ op.kind = .scalarImplicit → index = 0) :
    index ∈ op.dataPositions := by
  unfold dataPositions
  cases shape : op.kind <;>
    simp_all [Kind.arity, Arity.accepts, Kind.isInlinable] <;> omega

namespace Graph

/-- Every operator comes after the producers of its inputs. -/
def InOrder (g : Graph) : Prop := ∀ q p, g.Reads q p → p.index < q.index

/-- Casts take nothing that may be a tensor besides the value that they change. -/
def PlainCasts (g : Graph) : Prop :=
  ∀ op ∈ g.operators, op.kind = .cast ∨ op.kind = .scalarImplicit →
    ∀ a ∈ op.inputs.tail, g.tensorValued a ≠ .ok true

instance (g : Graph) : Decidable g.InOrder :=
  decidable_of_iff _ (g.forall_reads_iff fun q p => p.index < q.index).symm

instance (g : Graph) : Decidable g.PlainCasts :=
  inferInstanceAs (Decidable (∀ op ∈ g.operators, op.kind = .cast ∨ op.kind = .scalarImplicit →
    ∀ a ∈ op.inputs.tail, g.tensorValued a ≠ .ok true))

/-! ## Slots and held back operands -/

/-- A slot that could be written out is held back. -/
theorem isHeldBack_of_mem_slots {g : Graph} {foldable : List String} {depth : Nat} {nested : Bool}
    {c : OperandId} {formula : Formula OperandId}
    (expanded : g.expandWithin foldable depth nested c = .ok formula) {a : OperandId}
    (mem : a ∈ formula.slots) {op : Operator} (source : g.source a = .ok op)
    (candidate : op.isCandidate = true) : g.isHeldBack foldable a op = .ok true := by
  obtain ⟨inlinable, literal⟩ := op.isCandidate_iff.1 candidate
  induction depth generalizing nested c formula with
  | zero => cases expanded
  | succ depth ih =>
    cases (expandWithin_succ_eq_ok_iff ..).1 expanded with
    | heldBack source' _ held =>
      obtain rfl : a = c := by simpa [Formula.slots] using mem
      obtain rfl := Except.ok.inj (source.symm.trans source')
      exact held
    | outside source' _ outside =>
      obtain rfl : a = c := by simpa [Formula.slots] using mem
      obtain rfl := Except.ok.inj (source.symm.trans source')
      rw [inlinable] at outside
      cases outside
    | tensor source' _ constant value other =>
      obtain rfl : a = c := by simpa [Formula.slots] using mem
      obtain rfl := Except.ok.inj (source.symm.trans source')
      obtain ⟨scalar, rfl⟩ := literal constant _ value
      simp [Parameter.literal?] at other
    | literal => simp [Formula.slots] at mem
    | computed _ _ _ _ args =>
      rw [Formula.slots_ofKind, Formula.mem_slotsOfAll_iff] at mem
      obtain ⟨arg, listed, mem⟩ := mem
      obtain ⟨index, -, input, -, expanded⟩ := exists_left_of_forall₂ args listed
      exact ih expanded mem

/-- An input that is read by the formula of a candidate and held back is one of its slots. -/
theorem mem_slots_of_isHeldBack {g : Graph} {foldable : List String} {c : OperandId}
    {op : Operator} (source : g.source c = .ok op) (candidate : op.isCandidate = true)
    {formula : Formula OperandId} (expanded : g.expand foldable c = .ok formula)
    {index : Nat} (position : index ∈ op.dataPositions) {a : OperandId}
    (input : op.input index = .ok a) {op' : Operator} (source' : g.source a = .ok op')
    (held : g.isHeldBack foldable a op' = .ok true) : a ∈ formula.slots := by
  obtain ⟨inlinable, literal⟩ := op.isCandidate_iff.1 candidate
  cases (expandWithin_succ_eq_ok_iff ..).1 expanded with
  | heldBack _ below => cases below
  | outside found _ outside =>
    obtain rfl := Except.ok.inj (source.symm.trans found)
    rw [inlinable] at outside
    cases outside
  | tensor found _ constant =>
    obtain rfl := Except.ok.inj (source.symm.trans found)
    simp [Operator.dataPositions, constant] at position
  | literal found _ constant =>
    obtain rfl := Except.ok.inj (source.symm.trans found)
    simp [Operator.dataPositions, constant] at position
  | computed found _ _ _ args =>
    obtain rfl := Except.ok.inj (source.symm.trans found)
    obtain ⟨arg, listed, b, input', step⟩ := exists_right_of_forall₂ args position
    obtain rfl := Except.ok.inj (input.symm.trans input')
    rw [Formula.slots_ofKind, Formula.mem_slotsOfAll_iff]
    refine ⟨arg, listed, ?_⟩
    rw [expandWithin_succ_of_source source', if_pos rfl, held, bind_ok, if_pos rfl] at step
    obtain rfl := Except.ok.inj step
    simp [Formula.slots]

/-- Below the top, an operand that cannot be written out is a slot whether it is held back or not. -/
theorem WellFormed.expandWithin_succ_of_not_candidate {g : Graph} (wellFormed : g.WellFormed)
    (foldable : List String) (depth : Nat) (nested : Bool) {a : OperandId} {op : Operator}
    (source : g.source a = .ok op) (other : op.isCandidate = false) :
    g.expandWithin foldable (depth + 1) nested a = .ok (.slot a) := by
  obtain ⟨held, decided⟩ := wellFormed.exists_isHeldBack foldable source
  rw [expandWithin_succ_eq_ok_iff]
  by_cases back : nested = true ∧ held = true
  · obtain ⟨rfl, rfl⟩ := back
    exact .heldBack source rfl decided
  have free : nested = true → g.isHeldBack foldable a op = .ok false := by
    intro below
    rw [decided, Bool.eq_false_iff.2 fun h => back ⟨below, h⟩]
  by_cases inlinable : op.kind.isInlinable = true
  · -- What can be inlined and is no candidate is a constant without a literal.
    have notLiteral : ¬(op.kind = .constant → ∀ parameter, op.value = .ok parameter →
        ∃ literal, parameter = .literal literal) := by
      intro literal
      rw [op.isCandidate_iff.2 ⟨inlinable, literal⟩] at other
      cases other
    push Not at notLiteral
    obtain ⟨constant, parameter, value, notLiteral⟩ := notLiteral
    refine .tensor source free constant value ?_
    cases parameter with
    | literal literal => exact absurd rfl (notLiteral literal)
    | _ => rfl
  · exact .outside source free (by simpa using inlinable)

/-! ## Consumers -/

/-- Linked graphs in which no operator uses an operand more often have no more consumers of it. -/
theorem Linked.length_consumers_le {g h : Graph} (linked : g.Linked) (linked' : h.Linked)
    {a : OperandId} {operand operand' : Operand} (found : g.operands[a.index]? = some operand)
    (found' : h.operands[a.index]? = some operand') (fewer : ∀ q, g.uses q a ≤ h.uses q a) :
    operand.consumers.length ≤ operand'.consumers.length := by
  refine (List.subperm_iff_count.2 fun q => ?_).length_le
  rw [linked.consumers found, linked'.consumers found']
  exact fewer q

theorem Linked.one_lt_length_consumers {g : Graph} (linked : g.Linked) {a : OperandId}
    {operand : Operand} (found : g.operands[a.index]? = some operand) {q r : OperatorId}
    (apart : q ≠ r) (uses_q : 0 < g.uses q a) (uses_r : 0 < g.uses r a) :
    1 < operand.consumers.length := by
  rw [← linked.consumers found, List.count_pos_iff] at uses_q uses_r
  by_contra few
  obtain ⟨only, eq⟩ : ∃ only, operand.consumers = [only] := by
    apply List.length_eq_one_iff.1
    have := List.length_pos_of_mem uses_q
    omega
  rw [eq, List.mem_singleton] at uses_q uses_r
  exact apart (uses_q.trans uses_r.symm)

theorem uses_pos_iff {g : Graph} {q : OperatorId} {op : Operator}
    (found : g.operators[q.index]? = some op) (a : OperandId) :
    0 < g.uses q a ↔ a ∈ op.inputs := by
  rw [uses_of_operators found, List.count_pos_iff]

/-- In program order the inputs of a producer have producers before it. -/
theorem Determined.exists_producer_lt {g : Graph} (determined : g.Determined) (inOrder : g.InOrder)
    {p : OperatorId} {op : Operator} (found : g.operators[p.index]? = some op) {b : OperandId}
    (mem : b ∈ op.inputs) : ∃ q, g.producer b = .ok q ∧ q.index < p.index := by
  have known := determined.input_known op (List.mem_of_getElem? found) b mem
  obtain ⟨op', source⟩ := determined.produced b known
  obtain ⟨q, producer, -⟩ := (g.source_eq_ok_iff b op').1 source
  exact ⟨q, producer, inOrder p q ⟨op, b, found, mem, producer⟩⟩

end Graph

/-! ## Progress of a run -/

namespace Fusion

/-- The operator `op'` is `op` fused by the formula that `g` has for it. -/
def FusedIn (f : Fusion) (g : Graph) (op op' : Operator) : Prop :=
  ∃ output fused number, op.outputs[0]? = some output ∧
    g.fusedFormula f.foldable output = .ok fused ∧
    op' = f.expression number fused.text { op with inputs := fused.inputs }

/-- The graph `h` is `g` with all candidates from position `t` on fused as `g` says. -/
structure Progress (f : Fusion) (g : Graph) (t : Nat) (h : Graph) : Prop where
  length_operators : h.operators.length = g.operators.length
  length_operands : h.operands.length = g.operands.length
  operands : ∀ i : Nat, (h.operands[i]?).map (fun operand => (operand.name, operand.producer)) =
    (g.operands[i]?).map fun operand => (operand.name, operand.producer)
  before : ∀ q < t, h.operators[q]? = g.operators[q]?
  kept : ∀ (q : Nat) (op : Operator), t ≤ q → g.operators[q]? = some op →
    op.isCandidate = false → h.operators[q]? = some op
  fused : ∀ (q : Nat) (op : Operator), t ≤ q → g.operators[q]? = some op →
    op.isCandidate = true → ∃ op', h.operators[q]? = some op' ∧ f.FusedIn g op op'

namespace Progress

variable {f : Fusion} {g h : Graph} {t : Nat}

theorem producer (progress : f.Progress g t h) (a : OperandId) : h.producer a = g.producer a :=
  Graph.producer_congr progress.operands a

theorem name (progress : f.Progress g t h) (a : OperandId) :
    (h.operand a).map Operand.name = (g.operand a).map Operand.name := by
  have same := congrArg (Option.map Prod.fst) (progress.operands a.index)
  unfold Graph.operand
  cases now : h.operands[a.index]? <;> cases first : g.operands[a.index]? <;>
    simp_all [Except.map]

theorem source (progress : f.Progress g t h) {a : OperandId} {p : OperatorId}
    (producer : g.producer a = .ok p) (early : p.index < t) : h.source a = g.source a := by
  rw [Graph.source, Graph.source, progress.producer, producer, bind_ok, bind_ok, Graph.operator,
    Graph.operator, progress.before _ early]

/-- Classifications of operands from before `t` have not changed. -/
theorem tensorValuedWithin (progress : f.Progress g t h) (determined : g.Determined)
    (inOrder : g.InOrder) (depth : Nat) {a : OperandId} {p : OperatorId}
    (producer : g.producer a = .ok p) (early : p.index < t) :
    h.tensorValuedWithin depth a = g.tensorValuedWithin depth a := by
  induction depth generalizing a p with
  | zero => rfl
  | succ depth ih =>
    apply Graph.tensorValuedWithin_succ_congr (progress.source producer early)
    intro op source b mem
    obtain ⟨p', producer', found⟩ := (g.source_eq_ok_iff a op).1 source
    obtain rfl := Except.ok.inj (producer.symm.trans producer')
    obtain ⟨q, producer_b, lower⟩ := determined.exists_producer_lt inOrder found mem
    exact ih producer_b (lower.trans early)

theorem fromConstantsWithin (progress : f.Progress g t h) (determined : g.Determined)
    (inOrder : g.InOrder) (depth : Nat) {a : OperandId} {p : OperatorId}
    (producer : g.producer a = .ok p) (early : p.index < t) :
    h.fromConstantsWithin f.foldable depth a = g.fromConstantsWithin f.foldable depth a := by
  induction depth generalizing a p with
  | zero => rfl
  | succ depth ih =>
    apply Graph.fromConstantsWithin_succ_congr (progress.name a) (progress.source producer early)
    intro op source b mem
    obtain ⟨p', producer', found⟩ := (g.source_eq_ok_iff a op).1 source
    obtain rfl := Except.ok.inj (producer.symm.trans producer')
    obtain ⟨q, producer_b, lower⟩ := determined.exists_producer_lt inOrder found mem
    exact ih producer_b (lower.trans early)

/-- Operators before `t` use the operands that they used. -/
theorem uses_of_lt (progress : f.Progress g t h) {q : OperatorId} (early : q.index < t)
    (a : OperandId) : h.uses q a = g.uses q a := by
  rw [Graph.uses, Graph.uses, progress.before _ early]

/-- A fused operator uses the slots of its formula, each once. -/
theorem uses_of_fused (progress : f.Progress g t h) {q : OperatorId} (late : t ≤ q.index)
    {op : Operator} (found : g.operators[q.index]? = some op) (candidate : op.isCandidate = true) :
    ∃ output formula, op.outputs[0]? = some output ∧ g.expand f.foldable output = .ok formula ∧
      ∀ a, h.uses q a = if a ∈ formula.slots then 1 else 0 := by
  obtain ⟨_, found', output, fused, number, first, built, rfl⟩ :=
    progress.fused q.index op late found candidate
  obtain ⟨formula, expanded, rfl⟩ := (map_eq_ok_iff _ _ _).1 built
  refine ⟨output, formula, first, expanded, fun a => ?_⟩
  rw [Graph.uses_of_operators found']
  change (Frontier.ofList formula.slots).operands.count a = _
  rw [(Frontier.nodup_operands_ofList _).count]
  simp only [Frontier.mem_operands_ofList_iff]

/-- A tensor that is held back and read behind `t` is still read there. -/
theorem uses_pos_of_isHeldBack (progress : f.Progress g t h) (wellFormed : g.WellFormed)
    (plain : g.PlainCasts) {a : OperandId} {op : Operator} (source : g.source a = .ok op)
    (tensor : g.tensorValued a = .ok true) (held : g.isHeldBack f.foldable a op = .ok true)
    {q : OperatorId} (late : t ≤ q.index) (reads : 0 < g.uses q a) : 0 < h.uses q a := by
  cases found : g.operators[q.index]? with
  | none =>
    rw [Graph.uses_eq_zero found] at reads
    cases reads
  | some reader =>
    have mem := (Graph.uses_pos_iff found a).1 reads
    by_cases candidate : reader.isCandidate = true
    · obtain ⟨output, formula, first, expanded, uses⟩ := progress.uses_of_fused late found candidate
      obtain ⟨index, input⟩ := List.getElem?_of_mem mem
      have reader_mem := List.mem_of_getElem? found
      have position : index ∈ reader.dataPositions := by
        refine Operator.mem_dataPositions (wellFormed.determined.arity reader reader_mem)
          (reader.isCandidate_iff.1 candidate).1 (List.getElem?_eq_some_iff.1 input).1 ?_
        intro cast
        cases index with
        | zero => rfl
        | succ index =>
          rw [← List.getElem?_tail] at input
          exact absurd tensor (plain reader reader_mem cast a (List.mem_of_getElem? input))
      have producer : g.producer output = .ok q :=
        wellFormed.linked.producer_iff.2 ⟨reader, found, List.mem_of_getElem? first⟩
      have slot := Graph.mem_slots_of_isHeldBack
        ((g.source_eq_ok_iff output reader).2 ⟨q, producer, found⟩) candidate expanded position
        ((reader.input_eq_ok_iff index a).2 input) source held
      rw [uses, if_pos slot]
      exact Nat.one_pos
    · have kept := progress.kept q.index reader late found (by simpa using candidate)
      exact (Graph.uses_pos_iff kept a).2 mem

/-- A candidate's value that is not held back is not read more often behind `t`. -/
theorem uses_le_of_not_isHeldBack (progress : f.Progress g t h) {a : OperandId} {op : Operator}
    (source : g.source a = .ok op) (candidate : op.isCandidate = true)
    (free : g.isHeldBack f.foldable a op = .ok false) (q : OperatorId) :
    h.uses q a ≤ g.uses q a := by
  rcases Nat.lt_or_ge q.index t with early | late
  · exact (progress.uses_of_lt early a).le
  cases found : g.operators[q.index]? with
  | none =>
    have beyond : h.operators[q.index]? = none := by
      rw [List.getElem?_eq_none_iff] at found ⊢
      rwa [progress.length_operators]
    rw [Graph.uses_eq_zero beyond]
    exact Nat.zero_le _
  | some reader =>
    by_cases reading : reader.isCandidate = true
    · obtain ⟨output, formula, -, expanded, uses⟩ := progress.uses_of_fused late found reading
      rw [uses, if_neg]
      · exact Nat.zero_le _
      · intro slot
        rw [Graph.isHeldBack_of_mem_slots expanded slot source candidate] at free
        cases free
    · have kept := progress.kept q.index reader late found (by simpa using reading)
      rw [Graph.uses_of_operators found, Graph.uses_of_operators kept]

/-- A tensor that is held back exactly if it has several consumers has several behind `t` exactly if it
had: it is not read more often if it was not held back, and what was held back is still read. -/
theorem one_lt_length_consumers_iff (progress : f.Progress g t h) (wellFormed : g.WellFormed)
    (wellFormed' : h.WellFormed) (plain : g.PlainCasts) {a : OperandId} {op : Operator}
    (source : g.source a = .ok op) (candidate : op.isCandidate = true)
    (tensor : g.tensorValued a = .ok true) {operand operand' : Operand}
    (look : g.operands[a.index]? = some operand) (look' : h.operands[a.index]? = some operand')
    (held : g.isHeldBack f.foldable a op = .ok (decide (1 < operand.consumers.length)))
    {r : OperatorId} (early : r.index < t) (reads : 0 < g.uses r a) :
    1 < operand'.consumers.length ↔ 1 < operand.consumers.length := by
  constructor
  · intro now
    by_contra few
    rw [decide_eq_false few] at held
    have := wellFormed'.linked.length_consumers_le wellFormed.linked look' look
      (progress.uses_le_of_not_isHeldBack source candidate held)
    omega
  · intro first
    rw [decide_eq_true first] at held
    by_cases behind : ∃ q : OperatorId, t ≤ q.index ∧ 0 < g.uses q a
    · obtain ⟨q, late, uses⟩ := behind
      have still := progress.uses_pos_of_isHeldBack wellFormed plain source tensor held late uses
      refine wellFormed'.linked.one_lt_length_consumers look' (q := q) (r := r) ?_ still ?_
      · rintro rfl
        omega
      · rwa [progress.uses_of_lt early]
    · refine lt_of_lt_of_le first
        (wellFormed.linked.length_consumers_le wellFormed'.linked look look' fun q => ?_)
      rcases Nat.lt_or_ge q.index t with early | late
      · exact (progress.uses_of_lt early a).ge
      · have none : ¬0 < g.uses q a := fun uses => behind ⟨q, late, uses⟩
        omega

/-- Whether a candidate's value is held back has not changed for readers before `t`. -/
theorem isHeldBack (progress : f.Progress g t h) (wellFormed : g.WellFormed)
    (wellFormed' : h.WellFormed) (inOrder : g.InOrder) (plain : g.PlainCasts) {a : OperandId}
    {p : OperatorId} {op : Operator} (producer : g.producer a = .ok p) (early : p.index < t)
    (found : g.operators[p.index]? = some op) (candidate : op.isCandidate = true) {r : OperatorId}
    (early' : r.index < t) (reads : 0 < g.uses r a) :
    h.isHeldBack f.foldable a op = g.isHeldBack f.foldable a op := by
  have source : g.source a = .ok op := (g.source_eq_ok_iff a op).2 ⟨p, producer, found⟩
  have source' : h.source a = .ok op := (progress.source producer early).trans source
  have known := Graph.index_lt_of_source source
  obtain ⟨tensor, tensorValued⟩ := wellFormed.determined.exists_tensorValued known
  obtain ⟨constant, fromConstants⟩ := wellFormed.determined.exists_fromConstants f.foldable known
  have tensorValued' : h.tensorValued a = .ok tensor := by
    rw [Graph.tensorValued, progress.length_operands,
      progress.tensorValuedWithin wellFormed.determined inOrder _ producer early]
    exact tensorValued
  have fromConstants' : h.fromConstants f.foldable a = .ok constant := by
    rw [Graph.fromConstants, progress.length_operands,
      progress.fromConstantsWithin wellFormed.determined inOrder _ producer early]
    exact fromConstants
  have look := List.getElem?_eq_getElem known
  have look' := List.getElem?_eq_getElem (Graph.index_lt_of_source source')
  have held := wellFormed.linked.isHeldBack_of_source source look tensorValued fromConstants
  rw [wellFormed'.linked.isHeldBack_of_source source' look' tensorValued' fromConstants']
  cases tensor with
  | false => rw [held, Bool.false_and, Bool.false_and]
  | true =>
    by_cases settled : 1 < op.outputs.length ∨ constant = true
    · rcases settled with several | rfl
      · simp [held, several]
      · simp [held]
    obtain ⟨single, rfl⟩ : ¬1 < op.outputs.length ∧ constant = false := by simpa using settled
    -- It is left to show that the operand has several consumers if and only if it had.
    simp only [single, decide_false, Bool.false_or, Bool.or_false, Bool.true_and] at held ⊢
    rw [held]
    congr 1
    exact decide_eq_decide.2 (progress.one_lt_length_consumers_iff wellFormed wellFormed' plain
      source candidate tensorValued look look' held early' reads)

/-- Expansions of operands from before `t` have not changed for readers before `t`. -/
theorem expandWithin (progress : f.Progress g t h) (wellFormed : g.WellFormed)
    (wellFormed' : h.WellFormed) (inOrder : g.InOrder) (plain : g.PlainCasts) (depth : Nat)
    {nested : Bool} {a : OperandId} {p : OperatorId} (producer : g.producer a = .ok p)
    (early : p.index < t)
    (reads : nested = true → ∃ r : OperatorId, r.index < t ∧ 0 < g.uses r a) :
    h.expandWithin f.foldable depth nested a = g.expandWithin f.foldable depth nested a := by
  induction depth generalizing nested a p with
  | zero => rfl
  | succ depth ih =>
    obtain ⟨op, found, -⟩ := wellFormed.linked.producer_iff.1 producer
    have source : g.source a = .ok op := (g.source_eq_ok_iff a op).2 ⟨p, producer, found⟩
    have same := progress.source producer early
    by_cases candidate : op.isCandidate = true
    · refine Graph.expandWithin_succ_congr same ?_ ?_
      · rintro rfl op' source'
        obtain rfl := Except.ok.inj (source.symm.trans source')
        obtain ⟨r, early', uses⟩ := reads rfl
        exact progress.isHeldBack wellFormed wellFormed' inOrder plain producer early found
          candidate early' uses
      · intro op' source' b mem
        obtain rfl := Except.ok.inj (source.symm.trans source')
        obtain ⟨q, producer_b, lower⟩ :=
          wellFormed.determined.exists_producer_lt inOrder found mem
        exact ih producer_b (lower.trans early) fun _ =>
          ⟨p, early, (Graph.uses_pos_iff found b).2 mem⟩
    · have other : op.isCandidate = false := by simpa using candidate
      rw [wellFormed.expandWithin_succ_of_not_candidate _ _ _ source other,
        wellFormed'.expandWithin_succ_of_not_candidate _ _ _ (same.trans source) other]

theorem fusedFormula (progress : f.Progress g t h) (wellFormed : g.WellFormed)
    (wellFormed' : h.WellFormed) (inOrder : g.InOrder) (plain : g.PlainCasts) {a : OperandId}
    {p : OperatorId} (producer : g.producer a = .ok p) (early : p.index < t) :
    h.fusedFormula f.foldable a = g.fusedFormula f.foldable a := by
  rw [Graph.fusedFormula, Graph.fusedFormula, Graph.expand, Graph.expand, progress.length_operands,
    progress.expandWithin wellFormed wellFormed' inOrder plain _ producer early (by rintro ⟨⟩)]

/-! ## Progress of a whole run -/

theorem start (f : Fusion) (g : Graph) : f.Progress g g.operators.length g where
  length_operators := rfl
  length_operands := rfl
  operands _ := rfl
  before _ _ := rfl
  kept _ _ _ found _ := found
  fused q op late found _ := by
    have := (List.getElem?_eq_some_iff.1 found).1
    omega

/-- The last candidate stands before everything that is fused. -/
theorem lt_of_isCandidate (progress : f.Progress g t h) {id : Nat} {op : Operator}
    (found : h.operators[id]? = some op) (candidate : op.isCandidate = true) : id < t := by
  by_contra late
  have inside : id < g.operators.length := by
    rw [← progress.length_operators]
    exact (List.getElem?_eq_some_iff.1 found).1
  have first := List.getElem?_eq_getElem inside
  by_cases original : g.operators[id].isCandidate = true
  · obtain ⟨_, now, _, _, _, -, -, rfl⟩ := progress.fused id _ (by omega) first original
    obtain rfl := Option.some.inj (found.symm.trans now)
    cases candidate
  · have now := progress.kept id _ (by omega) first (by simpa using original)
    obtain rfl := Option.some.inj (found.symm.trans now)
    exact original candidate

/-- With no candidate between, progress reaches further down. -/
theorem descend (progress : f.Progress g t h) {s : Nat} (lower : s ≤ t)
    (others : ∀ q op, s ≤ q → h.operators[q]? = some op → op.isCandidate = false) :
    f.Progress g s h where
  length_operators := progress.length_operators
  length_operands := progress.length_operands
  operands := progress.operands
  before q early := progress.before q (by omega)
  kept q op late found other := by
    rcases Nat.lt_or_ge q t with early | late'
    · rw [progress.before q early, found]
    · exact progress.kept q op late' found other
  fused q op late found candidate := by
    rcases Nat.lt_or_ge q t with early | late'
    · rw [others q op late ((progress.before q early).trans found)] at candidate
      cases candidate
    · exact progress.fused q op late' found candidate

theorem step (progress : f.Progress g t h) (wellFormed : g.WellFormed)
    (wellFormed' : h.WellFormed) (inOrder : g.InOrder) (plain : g.PlainCasts) {id : OperatorId}
    {n : Nat} {k : Graph} (last : h.lastCandidate? = some id) (fused : f.fuseAt h id n = .ok k) :
    f.Progress g id.index k := by
  obtain ⟨op, found, candidate, others⟩ := Graph.lastCandidate?_eq_some last
  have lower := progress.lt_of_isCandidate found candidate
  have progress := progress.descend lower others
  obtain ⟨op', formula, step⟩ := exists_step fused
  obtain rfl := Option.some.inj (found.symm.trans step.found)
  have original : g.operators[id.index]? = some op := by
    rw [← progress.before _ (Nat.lt_succ_self _), found]
  obtain ⟨output, output_mem, first, built⟩ := step.formula
  have producer : g.producer output = .ok id :=
    wellFormed.linked.producer_iff.2 ⟨op, original, output_mem⟩
  rw [progress.fusedFormula wellFormed wellFormed' inOrder plain producer
    (Nat.lt_succ_self _)] at built
  constructor
  · rw [step.length_operators, progress.length_operators]
  · rw [step.length, progress.length_operands]
  · exact fun i => (step.operands i).trans (progress.operands i)
  · intro q early
    rw [step.getElem?_operators_of_ne (Nat.ne_of_lt early),
      progress.before q (early.trans (Nat.lt_succ_self _))]
  · intro q op' late found' other
    by_cases here : q = id.index
    · subst here
      obtain rfl := Option.some.inj (original.symm.trans found')
      rw [candidate] at other
      cases other
    · rw [step.getElem?_operators_of_ne here]
      exact progress.kept q op' (by omega) found' other
  · intro q op' late found' candidate'
    by_cases here : q = id.index
    · subst here
      obtain rfl := Option.some.inj (original.symm.trans found')
      exact ⟨_, step.getElem?_operators_self, output, formula, n, first, built, rfl⟩
    · rw [step.getElem?_operators_of_ne here]
      exact progress.fused q op' (by omega) found' candidate'

end Progress

theorem Reaches.exists_progress {f : Fusion} {g h : Graph} {n : Nat} (reached : f.Reaches g n h)
    (wellFormed : g.WellFormed) (inOrder : g.InOrder) (plain : g.PlainCasts) :
    ∃ t, f.Progress g t h := by
  induction reached with
  | start => exact ⟨_, .start f g⟩
  | step before last fused ih =>
    obtain ⟨t, progress⟩ := ih
    exact ⟨_, progress.step wellFormed (before.wellFormed wellFormed) inOrder plain last fused⟩

/-- When program order is topological and casts take no further tensors, a run on a valid graph turns
every candidate into the expression that the graph before the run gives for it: its parameter `expr` is
the text, and its inputs are the inputs, of the formula of its first output there. -/
theorem run_eq_original {g : Graph} (built : g.Built) (valid : g.validate = .ok ())
    (inOrder : g.InOrder) (plain : g.PlainCasts) (f : Fusion) {p : OperatorId} {op : Operator}
    (found : g.operators[p.index]? = some op) (candidate : op.isCandidate = true) :
    (f.run g).result = .ok (g.operators.countP Operator.isCandidate) ∧
      ∃ output fused op', op.outputs[0]? = some output ∧
        g.fusedFormula f.foldable output = .ok fused ∧
        (f.run g).graph.operators[p.index]? = some op' ∧
        op'.params.get? "expr" = some (.literal (.string fused.text)) ∧
        op'.inputs = fused.inputs ∧
        ∃ number, op' = f.expression number fused.text { op with inputs := fused.inputs } := by
  have wellFormed := Graph.wellFormed_of_validate built.linked valid
  have ends := f.ends_run g
  have result := ends.result_eq_ok wellFormed
  refine ⟨result, ?_⟩
  generalize f.run g = outcome at ends result
  cases ends with
  | failed => cases result
  | done reached none =>
    obtain ⟨t, progress⟩ := reached.exists_progress wellFormed inOrder plain
    have late : t ≤ p.index := by
      by_contra early
      have kept := (progress.before p.index (by omega)).trans found
      rw [Graph.lastCandidate?_eq_none none op (List.mem_of_getElem? kept)] at candidate
      cases candidate
    obtain ⟨_, now, output, fused, number, first, formula, rfl⟩ :=
      progress.fused p.index op late found candidate
    exact ⟨output, fused, _, first, formula, now, f.get?_params_expression .., rfl, number, rfl⟩

end Fusion

/-! ## A graph with a cast -/

/-- The difference of a cast input and its own sine, scaled by one. -/
def Graph.castMinusSine : Graph where
  operators :=
    [{ kind := .input, name := "in", outputs := [⟨0⟩] },
     { kind := .constant, name := "dtype", outputs := [⟨1⟩]
       params := .singleton "value" (.literal (.int 6)) },
     { kind := .cast, name := "to", inputs := [⟨0⟩, ⟨1⟩], outputs := [⟨2⟩] },
     { kind := .unary .sin, name := "sin", inputs := [⟨2⟩], outputs := [⟨3⟩] },
     { kind := .constant, name := "one", outputs := [⟨4⟩]
       params := .singleton "value" (.literal (.int 1)) },
     { kind := .sub, name := "sub", inputs := [⟨2⟩, ⟨3⟩, ⟨4⟩], outputs := [⟨5⟩] },
     { kind := .output, name := "out", inputs := [⟨5⟩] }]
  operands :=
    [⟨"x", some ⟨0⟩, [⟨2⟩]⟩, ⟨"type", some ⟨1⟩, [⟨2⟩]⟩, ⟨"y", some ⟨2⟩, [⟨3⟩, ⟨5⟩]⟩,
     ⟨"s", some ⟨3⟩, [⟨5⟩]⟩, ⟨"alpha", some ⟨4⟩, [⟨5⟩]⟩, ⟨"z", some ⟨5⟩, [⟨6⟩]⟩]

theorem Graph.built_castMinusSine : castMinusSine.Built := by
  have run : castMinusSine.operators.foldlM (fun g op => (g.pushOperator op).map Prod.fst)
      (empty.pushOperands ["x", "type", "y", "s", "alpha", "z"]).1 = .ok castMinusSine := rfl
  exact (Built.empty.pushOperands _).pushOperators run

theorem Fusion.run_eq_original_castMinusSine :
    (Graph.castMinusSine.Built ∧ Graph.castMinusSine.validate = .ok () ∧
      Graph.castMinusSine.InOrder ∧ Graph.castMinusSine.PlainCasts) ∧
    ∃ op, (Fusion.run {} Graph.castMinusSine).graph.operators[5]? = some op ∧
      op.params.get? "expr" = some (.literal (.string "sub(@0,sin(@0))")) ∧ op.inputs = [⟨2⟩] ∧
      ∃ number, op = Fusion.expression {} number "sub(@0,sin(@0))"
        { kind := .sub, name := "sub", inputs := [⟨2⟩], outputs := [⟨5⟩] } := by
  have inOrder : Graph.castMinusSine.InOrder := by decide
  have plain : Graph.castMinusSine.PlainCasts := by decide
  obtain ⟨-, output, fused, op, first, formula, now, text, inputs, whole⟩ := run_eq_original
    Graph.built_castMinusSine rfl inOrder plain {} (p := ⟨5⟩) rfl rfl
  cases first
  cases formula
  exact ⟨⟨Graph.built_castMinusSine, rfl, inOrder, plain⟩, op, now, text, inputs, whole⟩

end FormulaFusion
