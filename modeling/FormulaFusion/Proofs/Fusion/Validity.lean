import FormulaFusion.Proofs.Fusion.Run

/-!
# Fusion adds no dependency and keeps graphs valid

If the links of a graph agree, an operator depends after a run only on what it depended on before, so
every topological order stays one (`Fusion.dependsOn_run`).  Together with the agreement of the links
this carries validity through every step (`Graph.Valid.fuseAt`): the graph that a successful fusion
leaves is valid again, has no candidate any more, and is not changed by another fusion
(`Graph.fuse_idempotent`).
-/

open Relation

namespace FormulaFusion

/-! ## Dependencies -/

namespace Fusion

theorem Reaches.agrees {f : Fusion} {g h : Graph} {n : Nat} (reached : f.Reaches g n h)
    (agrees : g.Agrees) : h.Agrees := by
  induction reached with
  | start => exact agrees
  | step _ _ fused ih =>
    obtain ⟨op, _, step⟩ := exists_step fused
    exact step.agrees ih

/-- What an operator depends on after a run it depended on before. -/
theorem Reaches.dependsOn {f : Fusion} {g h : Graph} {n : Nat} (reached : f.Reaches g n h)
    (agrees : g.Agrees) {q p : OperatorId} (depends : h.DependsOn q p) : g.DependsOn q p := by
  induction reached with
  | start => exact depends
  | step before last fused ih =>
    obtain ⟨op, _, candidate, step⟩ := exists_candidate_step last fused
    refine ih (step.dependsOn candidate (fun a output => ?_) depends)
    exact (before.agrees agrees).producer ⟨op, step.found, output⟩

theorem Reaches.length_operators {f : Fusion} {g h : Graph} {n : Nat} (reached : f.Reaches g n h) :
    h.operators.length = g.operators.length := by
  induction reached with
  | start => rfl
  | step _ last fused ih =>
    obtain ⟨op, _, -, step⟩ := exists_candidate_step last fused
    exact step.length_operators.trans ih

/-- A run on a graph with agreeing links, whether it succeeds or fails, makes no operator depend on
one that it did not depend on before; so every topological order of the operators stays one. -/
theorem dependsOn_run {g : Graph} (links : g.verifyLinks = .ok ()) (f : Fusion) :
    (∀ q p, (f.run g).graph.DependsOn q p → g.DependsOn q p) ∧
      ∀ order, g.Topological order → (f.run g).graph.Topological order := by
  obtain ⟨n, reached⟩ := (f.ends_run g).exists_reaches
  have agrees := g.verifyLinks_eq_ok_iff.1 links
  refine ⟨fun q p => reached.dependsOn agrees, fun order topological => ⟨?_, fun q p reads => ?_⟩⟩
  · rw [Graph.operatorIds, reached.length_operators]
    exact topological.1
  · exact Graph.lt_of_dependsOn topological.2 (reached.dependsOn agrees (.single reads))

end Fusion

/-! ## Validity -/

namespace Graph

/-- The slots of a candidate's formula are produced in the graph. -/
theorem Sourced.exists_source_of_mem_slots {g : Graph} (sourced : g.Sourced)
    {foldable : List String} {a b : OperandId} {op : Operator} {formula : Formula OperandId}
    (candidate : op.isCandidate = true) (source : g.source a = .ok op)
    (expanded : g.expand foldable a = .ok formula) (slot : b ∈ formula.slots) :
    ∃ op', g.source b = .ok op' := by
  have feeds := transGen_feeds_of_isCandidate candidate source expanded slot
  obtain ⟨c, ⟨op', source', input⟩, -⟩ := TransGen.head'_iff.1 feeds
  exact sourced op' (mem_operators_of_source source') b input

/-- A step of the last candidate keeps graphs valid. -/
theorem Valid.fuseAt {f : Fusion} {g h : Graph} {id : OperatorId} {number : Nat} (valid : g.Valid)
    (last : g.lastCandidate? = some id) (run : f.fuseAt g id number = .ok h) : h.Valid := by
  obtain ⟨op, fused, candidate, step⟩ := Fusion.exists_candidate_step last run
  have recorded : ∀ a ∈ op.outputs, g.producer a = .ok id :=
    fun a output => valid.agrees.producer ⟨op, step.found, output⟩
  refine ⟨step.agrees valid.agrees, ?_, ?_, ?_, ?_, ?_, ?_⟩
  · intro a known
    rw [step.length] at known
    obtain ⟨p, producer⟩ := valid.produced a known
    exact ⟨p, (step.producer a).trans producer⟩
  · intro op' mem
    rcases step.mem_operators mem with old | rfl
    · exact valid.arity op' old
    · rfl
  · intro op' mem inlinable
    rcases step.mem_operators mem with old | rfl
    · exact valid.outputs op' old inlinable
    · cases inlinable
  · intro op' mem constant
    rcases step.mem_operators mem with old | rfl
    · exact valid.valued op' old constant
    · cases constant
  · intro op' mem a input
    rcases step.mem_operators mem with old | rfl
    · obtain ⟨op'', source⟩ := valid.sourced op' old a input
      exact step.exists_source source
    · obtain ⟨output, listed, formula, expanded, slots⟩ := step.mem_inputs_iff
      have source : g.source output = .ok op :=
        (g.source_eq_ok_iff output op).2 ⟨id, recorded output listed, step.found⟩
      obtain ⟨op'', source'⟩ := valid.sourced.exists_source_of_mem_slots candidate source expanded
        ((slots a).1 input)
      exact step.exists_source source'
  · intro p cycle
    exact valid.acyclic p (step.dependsOn candidate recorded cycle)

end Graph

theorem Fusion.Reaches.valid {f : Fusion} {g h : Graph} {n : Nat} (reached : f.Reaches g n h)
    (valid : g.Valid) : h.Valid := by
  induction reached with
  | start => exact valid
  | step _ last fused ih => exact ih.fuseAt last fused

/-- What can be inlined and is no candidate is a constant with a value that is no literal. -/
theorem Operator.constant_of_not_isCandidate {op : Operator} (other : op.isCandidate = false)
    (inlinable : op.kind.isInlinable = true) :
    op.kind = .constant ∧ ∃ value, op.params.get? "value" = some value ∧ value.isLiteral = false := by
  unfold isCandidate at other
  split at other
  case h_1 constant =>
    refine ⟨constant, ?_⟩
    cases stored : op.params.get? "value" with
    | none => simp [stored] at other
    | some value => exact ⟨value, rfl, by simpa [stored] using other⟩
  case h_2 =>
    rw [inlinable] at other
    cases other

namespace Graph

/-- Fusing a valid graph without candidates leaves it as it is. -/
theorem fuse_of_lastCandidate?_eq_none {g : Graph} (valid : g.Valid)
    (none : g.lastCandidate? = none) (foldable : List String) : g.fuse foldable = ⟨g, .ok 0⟩ := by
  rw [fuse, g.validate_eq_ok_iff.2 valid]
  change Fusion.runFrom _ g.operators.length 0 g = _
  cases g.operators.length with
  | zero => rfl
  | succ limit => rw [Fusion.runFrom, none]

/-- The graph that a successful fusion leaves is valid and has no candidates: all that could be
written into a formula and is left are constants with values that are no literals.  Fusing it again,
with whatever names, succeeds without a step. -/
theorem fuse_idempotent {g h : Graph} {foldable : List String} {count : Nat}
    (fused : g.fuse foldable = ⟨h, .ok count⟩) (foldable' : List String) :
    h.validate = .ok () ∧ h.Valid ∧ (∀ op ∈ h.operators, op.isCandidate = false) ∧
      (∀ op ∈ h.operators, op.kind.isInlinable = true → op.kind = .constant ∧
        ∃ value, op.params.get? "value" = some value ∧ value.isLiteral = false) ∧
      h.fuse foldable' = ⟨h, .ok 0⟩ := by
  cases validated : g.validate with
  | error error => simp [fuse, validated] at fused
  | ok =>
    have run : Fusion.run { foldable := foldable } g = ⟨h, .ok count⟩ := by
      simpa [fuse, validated] using fused
    have ends := Fusion.ends_run { foldable := foldable } g
    rw [run] at ends
    cases ends with
    | done reached none =>
      have valid : h.Valid := reached.valid (g.validate_eq_ok_iff.1 validated)
      have left := lastCandidate?_eq_none none
      exact ⟨h.validate_eq_ok_iff.2 valid, valid, left,
        fun op mem => Operator.constant_of_not_isCandidate (left op mem),
        fuse_of_lastCandidate?_eq_none valid none foldable'⟩

end Graph

/-! ## A graph with a weight -/

/-- The product of an input with a weight, doubled by an addition of it to itself. -/
def Graph.weightedTwice : Graph where
  operators :=
    [{ kind := .input, name := "in", outputs := [⟨0⟩] },
     { kind := .constant, name := "weight", outputs := [⟨1⟩]
       params := .singleton "value" .tensor },
     { kind := .binary .mul, name := "mul", inputs := [⟨0⟩, ⟨1⟩], outputs := [⟨2⟩] },
     { kind := .constant, name := "one", outputs := [⟨3⟩]
       params := .singleton "value" (.literal (.int 1)) },
     { kind := .add, name := "sum", inputs := [⟨2⟩, ⟨2⟩, ⟨3⟩], outputs := [⟨4⟩] },
     { kind := .output, name := "out", inputs := [⟨4⟩] }]
  operands :=
    [⟨"x", some ⟨0⟩, [⟨2⟩]⟩, ⟨"w", some ⟨1⟩, [⟨2⟩]⟩, ⟨"y", some ⟨2⟩, [⟨4⟩, ⟨4⟩]⟩,
     ⟨"alpha", some ⟨3⟩, [⟨4⟩]⟩, ⟨"z", some ⟨4⟩, [⟨5⟩]⟩]

theorem Fusion.dependsOn_run_weightedTwice :
    Graph.weightedTwice.verifyLinks = .ok () ∧
      Graph.weightedTwice.Topological [⟨3⟩, ⟨1⟩, ⟨0⟩, ⟨2⟩, ⟨4⟩, ⟨5⟩] ∧
      (Fusion.run {} Graph.weightedTwice).graph.Topological [⟨3⟩, ⟨1⟩, ⟨0⟩, ⟨2⟩, ⟨4⟩, ⟨5⟩] := by
  have topological : Graph.weightedTwice.Topological [⟨3⟩, ⟨1⟩, ⟨0⟩, ⟨2⟩, ⟨4⟩, ⟨5⟩] := by decide
  exact ⟨rfl, topological, (dependsOn_run rfl {}).2 _ topological⟩

theorem Graph.fuse_idempotent_weightedTwice :
    ∃ h, weightedTwice.fuse [] = ⟨h, .ok 3⟩ ∧ h.operators[1]? = weightedTwice.operators[1]? ∧
      h.validate = .ok () ∧ h.fuse ["y", "z"] = ⟨h, .ok 0⟩ := by
  have fused : weightedTwice.fuse [] = ⟨(weightedTwice.fuse []).graph, .ok 3⟩ := rfl
  obtain ⟨valid, -, -, -, again⟩ := fuse_idempotent fused ["y", "z"]
  exact ⟨_, fused, rfl, valid, again⟩

end FormulaFusion
