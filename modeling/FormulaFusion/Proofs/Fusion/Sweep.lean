import FormulaFusion.Proofs.Fusion.Run

/-!
# Fusion is one sweep over the candidates

A run looks for the last candidate again after every step.  Since a step takes the candidate that it
fuses off the list and leaves all other operators alone (`Fusion.Step.candidates`), this is the same
as going once through the candidates of the first graph, from the last to the first
(`Fusion.runFrom_eq_sweep`).  `Fusion.Swept` says what such a sweep has done to a graph after a number
of steps; `Fusion.run_eq_sweep` puts the two together.
-/

namespace FormulaFusion

/-! ## Candidates from the last to the first -/

/-- The operators that fusion turns into expressions, from the last to the first. -/
def Graph.candidates (g : Graph) : List OperatorId :=
  g.operatorIds.reverse.filter fun id => (g.operators[id.index]?).any Operator.isCandidate

namespace Graph

theorem mem_candidates_iff (g : Graph) (id : OperatorId) :
    id ∈ g.candidates ↔ ∃ op, g.operators[id.index]? = some op ∧ op.isCandidate = true := by
  rw [candidates, List.mem_filter, List.mem_reverse, mem_operatorIds_iff, Option.any_eq_true]
  constructor
  · rintro ⟨-, found⟩
    exact found
  · rintro ⟨op, found, candidate⟩
    exact ⟨(List.getElem?_eq_some_iff.1 found).1, op, found, candidate⟩

theorem pairwise_candidates (g : Graph) : g.candidates.Pairwise fun p q => q.index < p.index := by
  refine List.Pairwise.filter _ (List.pairwise_reverse.2 ?_)
  rw [operatorIds, List.pairwise_map]
  exact List.pairwise_lt_range

theorem candidates_eq_nil {g : Graph} (none : g.lastCandidate? = none) : g.candidates = [] := by
  refine List.eq_nil_iff_forall_not_mem.2 fun id mem => ?_
  obtain ⟨op, found, candidate⟩ := (g.mem_candidates_iff id).1 mem
  rw [lastCandidate?_eq_none none op (List.mem_of_getElem? found)] at candidate
  cases candidate

/-- The last candidate is the first of the list. -/
theorem candidates_eq_cons {g : Graph} {id : OperatorId} (last : g.lastCandidate? = some id) :
    ∃ rest, g.candidates = id :: rest := by
  obtain ⟨op, found, candidate, others⟩ := lastCandidate?_eq_some last
  have mem : id ∈ g.candidates := (g.mem_candidates_iff id).2 ⟨op, found, candidate⟩
  cases split : g.candidates with
  | nil =>
    rw [split] at mem
    cases mem
  | cons first rest =>
    refine ⟨rest, congrArg (· :: rest) ?_⟩
    rw [split] at mem
    refine ((List.mem_cons.1 mem).resolve_right fun behind => ?_).symm
    have increasing := g.pairwise_candidates
    rw [split] at increasing
    have above := (List.pairwise_cons.1 increasing).1 id behind
    obtain ⟨op', found', candidate'⟩ :=
      (g.mem_candidates_iff first).1 (by rw [split]; exact List.mem_cons_self)
    rw [others first.index op' above found'] at candidate'
    cases candidate'

/-- The last candidate that a graph has left stands in the list of another where the rest begins. -/
theorem getElem?_candidates {g h : Graph} {n : Nat} {id : OperatorId}
    (last : h.lastCandidate? = some id) (left : h.candidates = g.candidates.drop n) :
    g.candidates[n]? = some id := by
  obtain ⟨rest, split⟩ := candidates_eq_cons last
  rw [← Nat.add_zero n, ← List.getElem?_drop, ← left, split]
  rfl

/-- The candidates before a place in the list are behind it in the graph. -/
theorem lt_of_mem_take_candidates {g : Graph} {n : Nat} {id p : OperatorId}
    (next : g.candidates[n]? = some id) (mem : p ∈ g.candidates.take n) : id.index < p.index := by
  have decreasing := g.pairwise_candidates
  rw [← List.take_append_drop n g.candidates, List.pairwise_append] at decreasing
  refine decreasing.2.2 p mem id (List.mem_of_getElem? (i := 0) ?_)
  rw [List.getElem?_drop]
  exact next

end Graph

namespace Fusion

/-- A step takes the candidate that it fuses off the list. -/
theorem Step.candidates {f : Fusion} {g h : Graph} {id : OperatorId} {number : Nat} {op : Operator}
    {fused : FusedFormula} (step : f.Step g id number op fused h) {rest : List OperatorId}
    (split : g.candidates = id :: rest) : h.candidates = rest := by
  -- Whether an operator is a candidate changes at `id` only.
  have left : ∀ q : OperatorId, (h.operators[q.index]?).any Operator.isCandidate =
      ((g.operators[q.index]?).any Operator.isCandidate && decide (q ≠ id)) := by
    intro q
    by_cases here : q = id
    · subst here
      rw [step.getElem?_operators_self, Option.any_some, f.isCandidate_expression]
      simp
    · have apart : q.index ≠ id.index := fun same => here (OperatorId.eq_of_index same)
      rw [step.getElem?_operators_of_ne apart]
      simp [here]
  have once : id ∉ rest := by
    intro mem
    have increasing := g.pairwise_candidates
    rw [split] at increasing
    exact absurd ((List.pairwise_cons.1 increasing).1 id mem) (lt_irrefl _)
  calc h.candidates = g.candidates.filter fun q => q ≠ id := by
        rw [Graph.candidates, Graph.candidates, Graph.operatorIds, Graph.operatorIds,
          step.length_operators, List.filter_filter]
        exact List.filter_congr fun q _ => (left q).trans (Bool.and_comm _ _)
    _ = rest := by
        rw [split, List.filter_cons_of_neg (by simp), List.filter_eq_self]
        intro q mem
        simpa using fun same : q = id => once (same ▸ mem)

/-! ## The sweep -/

/-- Fuses operators one after the other until a step fails; `done` counts the expressions made
before. -/
def sweep (f : Fusion) : List OperatorId → Nat → Graph → Outcome Nat
  | [], done, g => ⟨g, .ok done⟩
  | id :: rest, done, g =>
    match f.fuseAt g id done with
    | .ok next => f.sweep rest (done + 1) next
    | .error error => ⟨g, .error error⟩

theorem runFrom_eq_sweep (f : Fusion) {limit : Nat} (done : Nat) {g : Graph}
    (enough : g.candidates.length ≤ limit) :
    f.runFrom limit done g = f.sweep g.candidates done g := by
  induction limit generalizing done g with
  | zero =>
    rw [List.eq_nil_of_length_eq_zero (Nat.le_zero.1 enough)]
    rfl
  | succ limit ih =>
    rw [runFrom]
    cases last : g.lastCandidate? with
    | none =>
      rw [Graph.candidates_eq_nil last]
      rfl
    | some id =>
      obtain ⟨rest, split⟩ := Graph.candidates_eq_cons last
      rw [split, sweep]
      cases fused : f.fuseAt g id done with
      | error error => simp only [fused]
      | ok next =>
        obtain ⟨op, _, step⟩ := exists_step fused
        have fewer := step.candidates split
        rw [split, List.length_cons] at enough
        simp only [fused]
        rw [ih (done + 1) (by rw [fewer]; omega), fewer]

/-! ## What a sweep does -/

/-- The graph `h` is `g` after `n` steps of the sweep: the `k`-th candidate from the end is the
expression with the number `k`, and all else is as it was. -/
structure Swept (f : Fusion) (g : Graph) (n : Nat) (h : Graph) : Prop where
  fused : ∀ k < n, ∀ id op, g.candidates[k]? = some id → g.operators[id.index]? = some op →
    ∃ text inputs, h.operators[id.index]? = some
      { kind := .expression
        name := f.stem ++ toString k
        inputs := inputs
        outputs := op.outputs
        params := .singleton "expr" (.literal (.string text))
        attrs := ∅ }
  kept : ∀ id : OperatorId, id ∉ g.candidates.take n →
    h.operators[id.index]? = g.operators[id.index]?
  count_le : n ≤ g.candidates.length
  length_operators : h.operators.length = g.operators.length
  operands : h.operands.map (fun operand => (operand.name, operand.producer)) =
    g.operands.map fun operand => (operand.name, operand.producer)

theorem swept_zero (f : Fusion) (g : Graph) : f.Swept g 0 g where
  fused k below := absurd below (Nat.not_lt_zero k)
  kept _ _ := rfl
  count_le := Nat.zero_le _
  length_operators := rfl
  operands := rfl

/-- The next step of a sweep fuses the next candidate. -/
theorem Swept.step {f : Fusion} {g h k : Graph} {n : Nat} {id : OperatorId} {op : Operator}
    {fused : FusedFormula} (swept : f.Swept g n h) (next : g.candidates[n]? = some id)
    (step : f.Step h id n op fused k) : f.Swept g (n + 1) k := by
  -- The candidates that are fused already lie behind `id`, so the step does not touch them.
  have apart : ∀ p ∈ g.candidates.take n, p.index ≠ id.index :=
    fun p mem => (Graph.lt_of_mem_take_candidates next mem).ne'
  refine ⟨?_, ?_, (List.getElem?_eq_some_iff.1 next).1,
    step.length_operators.trans swept.length_operators, ?_⟩
  · intro j below id' op' place found
    rcases Nat.lt_succ_iff_lt_or_eq.1 below with earlier | rfl
    · have mem : id' ∈ g.candidates.take n :=
        List.mem_of_getElem? (i := j) (by rw [List.getElem?_take_of_lt earlier, place])
      rw [step.getElem?_operators_of_ne (apart id' mem)]
      exact swept.fused j earlier id' op' place found
    · obtain rfl : id = id' := Option.some.inj (next.symm.trans place)
      have same := swept.kept id fun mem => apart id mem rfl
      obtain rfl : op = op' := Option.some.inj (step.found.symm.trans (same.trans found))
      exact ⟨fused.text, fused.inputs, step.getElem?_operators_self⟩
  · intro p outside
    rw [List.take_add_one, next, Option.toList_some, List.mem_append, List.mem_singleton,
      not_or] at outside
    have other : p.index ≠ id.index := fun same => outside.2 (OperatorId.eq_of_index same)
    rw [step.getElem?_operators_of_ne other, swept.kept p outside.1]
  · rw [← swept.operands]
    refine List.ext_getElem? fun i => ?_
    rw [List.getElem?_map, List.getElem?_map, step.operands i]

/-- Different expressions of a sweep have different names. -/
theorem Swept.name_ne {f : Fusion} {g h : Graph} {n : Nat} (swept : f.Swept g n h)
    {p q : OperatorId} (mem_p : p ∈ g.candidates.take n) (mem_q : q ∈ g.candidates.take n)
    (apart : p ≠ q) :
    (h.operators[p.index]?).map Operator.name ≠ (h.operators[q.index]?).map Operator.name := by
  have numbered : ∀ r ∈ g.candidates.take n, ∃ k : Nat, g.candidates[k]? = some r ∧
      (h.operators[r.index]?).map Operator.name = some (f.stem ++ toString k) := by
    intro r mem
    obtain ⟨k, place⟩ := List.getElem?_of_mem mem
    have below : k < n := by
      have := (List.getElem?_eq_some_iff.1 place).1
      rw [List.length_take] at this
      omega
    rw [List.getElem?_take_of_lt below] at place
    obtain ⟨op, found, -⟩ := (g.mem_candidates_iff r).1 (List.mem_of_getElem? place)
    obtain ⟨text, inputs, now⟩ := swept.fused k below r op place found
    exact ⟨k, place, by rw [now]; rfl⟩
  obtain ⟨j, place_p, name_p⟩ := numbered p mem_p
  obtain ⟨k, place_q, name_q⟩ := numbered q mem_q
  intro same
  rw [name_p, name_q, Option.some_inj, String.append_right_inj] at same
  have digits : Nat.toDigits 10 j = Nat.toDigits 10 k := String.ofList_injective same
  obtain rfl : j = k := by
    rw [← Nat.ofDigitChars_ten_toDigits (n := j), digits, Nat.ofDigitChars_ten_toDigits]
  exact apart (Option.some.inj (place_p.symm.trans place_q))

/-- A run of `n` steps has swept the first `n` candidates and has the others before it. -/
theorem Reaches.swept {f : Fusion} {g h : Graph} {n : Nat} (reached : f.Reaches g n h) :
    f.Swept g n h ∧ h.candidates = g.candidates.drop n := by
  induction reached with
  | start => exact ⟨f.swept_zero g, rfl⟩
  | @step n h k id _ last fused ih =>
    obtain ⟨swept, left⟩ := ih
    obtain ⟨rest, split⟩ := Graph.candidates_eq_cons last
    obtain ⟨op, _, step⟩ := exists_step fused
    refine ⟨swept.step (Graph.getElem?_candidates last left) step, ?_⟩
    rw [step.candidates split, ← List.tail_drop, ← left, split]
    rfl

/-- A run goes once through the operators that are candidates of the graph, from the last to the
first, and stops at the first step that fails.  The `k`-th of them becomes the expression named by `k`
and keeps its outputs, no two get the same name, and all other operators, the names and the producers
of the operands stay as they are.  If no step fails, the result is the number of candidates; if one
fails, its operator and all before it are as they were. -/
theorem run_eq_sweep (f : Fusion) (g : Graph) :
    f.run g = f.sweep g.candidates 0 g ∧
    (g.candidates.Pairwise (fun p q => q.index < p.index) ∧
      ∀ id, id ∈ g.candidates ↔ ∃ op, g.operators[id.index]? = some op ∧ op.isCandidate = true) ∧
    ∃ n, f.Swept g n (f.run g).graph ∧
      (∀ p ∈ g.candidates.take n, ∀ q ∈ g.candidates.take n, p ≠ q →
        ((f.run g).graph.operators[p.index]?).map Operator.name ≠
          ((f.run g).graph.operators[q.index]?).map Operator.name) ∧
      ((f.run g).result = .ok n ∧ n = g.candidates.length ∧
          n = g.operators.countP Operator.isCandidate ∨
        ∃ id error, g.candidates[n]? = some id ∧
          f.fuseAt (f.run g).graph id n = .error error ∧ (f.run g).result = .error error ∧
          ∀ p : OperatorId, p.index ≤ id.index →
            (f.run g).graph.operators[p.index]? = g.operators[p.index]?) := by
  have enough : g.candidates.length ≤ g.operators.length :=
    (List.length_filter_le _ _).trans (by simp [Graph.operatorIds])
  refine ⟨f.runFrom_eq_sweep 0 enough, ⟨g.pairwise_candidates, g.mem_candidates_iff⟩, ?_⟩
  have ends := f.ends_run g
  generalize f.run g = outcome at ends
  cases ends with
  | @done n h reached none =>
    obtain ⟨swept, left⟩ := reached.swept
    refine ⟨n, swept, fun p mem_p q mem_q => swept.name_ne mem_p mem_q, .inl ⟨rfl, ?_, ?_⟩⟩
    · rw [Graph.candidates_eq_nil none] at left
      exact swept.count_le.antisymm (List.drop_eq_nil_iff.1 left.symm)
    · have used := reached.countP_isCandidate
      rwa [List.countP_eq_zero.2 fun op mem => by simp [Graph.lastCandidate?_eq_none none op mem],
        Nat.zero_add] at used
  | @failed n h id error reached last failed =>
    obtain ⟨swept, left⟩ := reached.swept
    have next := Graph.getElem?_candidates last left
    refine ⟨n, swept, fun p mem_p q mem_q => swept.name_ne mem_p mem_q,
      .inr ⟨id, error, next, failed, rfl, fun p before => swept.kept p fun mem => ?_⟩⟩
    have behind := Graph.lt_of_mem_take_candidates next mem
    omega

end Fusion

end FormulaFusion
