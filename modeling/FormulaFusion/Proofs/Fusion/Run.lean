import FormulaFusion.Proofs.Aborts
import FormulaFusion.Proofs.Fusion.Step

/-!
# Runs of fusion

A run goes from graph to graph by steps of the last candidate (`Fusion.Reaches`) until there is no
candidate left or a step fails (`Fusion.Ends`).  Every step uses up one candidate, so a run of as many
steps as there are operators always comes to such an end (`Fusion.ends_run`).  Well-formed graphs stay
well formed, and in them nothing that fusion asks can fail (`Fusion.Answers`): fusing a graph that
edits have built therefore either leaves it as it is or fuses all its candidates
(`Graph.fuse_all_or_nothing`).
-/

namespace FormulaFusion

namespace Fusion

/-! ## Runs -/

/-- Fusing the last candidate `n` times leads from `g` to a graph. -/
inductive Reaches (f : Fusion) (g : Graph) : Nat → Graph → Prop
  | start : Reaches f g 0 g
  | step {n : Nat} {h k : Graph} {id : OperatorId} : Reaches f g n h →
      h.lastCandidate? = some id → f.fuseAt h id n = .ok k → Reaches f g (n + 1) k

/-- How a run ends: without candidates, or with a candidate whose step fails. -/
inductive Ends (f : Fusion) (g : Graph) : Outcome Nat → Prop
  | done {n : Nat} {h : Graph} : f.Reaches g n h → h.lastCandidate? = none → Ends f g ⟨h, .ok n⟩
  | failed {n : Nat} {h : Graph} {id : OperatorId} {error : Error} : f.Reaches g n h →
      h.lastCandidate? = some id → f.fuseAt h id n = .error error → Ends f g ⟨h, .error error⟩

theorem Step.countP_isCandidate {f : Fusion} {g h : Graph} {id : OperatorId} {number : Nat}
    {op : Operator} {fused : FusedFormula} (step : f.Step g id number op fused h)
    (candidate : op.isCandidate = true) :
    h.operators.countP Operator.isCandidate + 1 = g.operators.countP Operator.isCandidate := by
  obtain ⟨below, here⟩ := List.getElem?_eq_some_iff.1 step.found
  have some_candidate : 0 < g.operators.countP Operator.isCandidate :=
    List.countP_pos_iff.2 ⟨op, List.mem_of_getElem? step.found, candidate⟩
  rw [step.operators, List.countP_set below, here, candidate, f.isCandidate_expression]
  simp only [if_true, Bool.false_eq_true, if_false]
  omega

/-- A run fuses one candidate of the graph in each step. -/
theorem Reaches.countP_isCandidate {f : Fusion} {g h : Graph} {n : Nat} (reached : f.Reaches g n h) :
    h.operators.countP Operator.isCandidate + n = g.operators.countP Operator.isCandidate := by
  induction reached with
  | start => rfl
  | step _ last fused ih =>
    obtain ⟨op, _, candidate, step⟩ := exists_candidate_step last fused
    have := step.countP_isCandidate candidate
    omega

theorem ends_runFrom {f : Fusion} {g h : Graph} {n limit : Nat} (reached : f.Reaches g n h)
    (enough : h.operators.countP Operator.isCandidate ≤ limit) :
    f.Ends g (f.runFrom limit n h) := by
  induction limit generalizing n h with
  | zero =>
    refine .done reached ?_
    cases last : h.lastCandidate? with
    | none => rfl
    | some id =>
      obtain ⟨op, found, candidate, -⟩ := Graph.lastCandidate?_eq_some last
      have := List.countP_pos_iff.2 ⟨op, List.mem_of_getElem? found, candidate⟩
      omega
  | succ limit ih =>
    rw [runFrom]
    split
    case h_1 last => exact .done reached last
    case h_2 id last =>
      split
      case h_1 k fused =>
        have next := reached.step last fused
        apply ih next
        have before := reached.countP_isCandidate
        have after := next.countP_isCandidate
        omega
      case h_2 error failed => exact .failed reached last failed

/-- Every run comes to an end. -/
theorem ends_run (f : Fusion) (g : Graph) : f.Ends g (f.run g) :=
  ends_runFrom .start List.countP_le_length

theorem Ends.exists_reaches {f : Fusion} {g : Graph} {outcome : Outcome Nat}
    (ends : f.Ends g outcome) : ∃ n, f.Reaches g n outcome.graph := by
  cases ends with
  | done reached => exact ⟨_, reached⟩
  | failed reached => exact ⟨_, reached⟩

/-- Runs keep the links. -/
theorem Reaches.linked {f : Fusion} {g h : Graph} {n : Nat} (reached : f.Reaches g n h)
    (linked : g.Linked) : h.Linked := by
  induction reached with
  | start => exact linked
  | step _ _ fused ih =>
    obtain ⟨op, _, step⟩ := exists_step fused
    exact step.linked ih

/-- Runs keep graphs well formed. -/
theorem Reaches.wellFormed {f : Fusion} {g h : Graph} {n : Nat} (reached : f.Reaches g n h)
    (wellFormed : g.WellFormed) : h.WellFormed := by
  induction reached with
  | start => exact wellFormed
  | step _ last fused ih =>
    obtain ⟨op, _, candidate, step⟩ := exists_candidate_step last fused
    exact step.wellFormed candidate ih

/-! ## All or nothing -/

/-- The kinds that a formula writes without a function name. -/
def inPlace : List Kind :=
  [.constant, .numToTensor, .listConstruct, .cast, .detach, .scalarImplicit]

/-- Nothing that fusion asks of a graph fails: both classifications answer for every operand, every
operand has a formula, every call has a name, and every candidate can be fused. -/
structure Answers (f : Fusion) (g : Graph) : Prop where
  tensorValued : ∀ a : OperandId, a.index < g.operands.length →
    ∃ answer, g.tensorValued a = .ok answer
  fromConstants : ∀ a : OperandId, a.index < g.operands.length →
    ∃ answer, g.fromConstants f.foldable a = .ok answer
  fusedFormula : ∀ a : OperandId, a.index < g.operands.length →
    ∃ fused, g.fusedFormula f.foldable a = .ok fused
  named : ∀ op ∈ g.operators, op.kind.isInlinable = true → op.kind ∉ inPlace →
    ∃ name, op.kind.functionName? = some name
  fuseAt : ∀ (id : OperatorId) (op : Operator) (number : Nat),
    g.operators[id.index]? = some op → op.isCandidate = true → ∃ h, f.fuseAt g id number = .ok h

theorem exists_functionName?_eq_some {kind : Kind} (inlinable : kind.isInlinable = true)
    (called : kind ∉ inPlace) : ∃ name, kind.functionName? = some name := by
  cases kind <;> simp_all [Kind.isInlinable, Kind.functionName?, inPlace]

theorem answers_of_wellFormed (f : Fusion) {g : Graph} (wellFormed : g.WellFormed) :
    f.Answers g where
  tensorValued _ known := wellFormed.determined.exists_tensorValued known
  fromConstants _ known := wellFormed.determined.exists_fromConstants f.foldable known
  fusedFormula _ known := wellFormed.exists_fusedFormula f.foldable known
  named _ _ inlinable called := exists_functionName?_eq_some inlinable called
  fuseAt _ _ number found candidate := wellFormed.exists_fuseAt f number found candidate

/-- A run on a well-formed graph fuses all its candidates. -/
theorem Ends.result_eq_ok {f : Fusion} {g : Graph} {outcome : Outcome Nat}
    (ends : f.Ends g outcome) (wellFormed : g.WellFormed) :
    outcome.result = .ok (g.operators.countP Operator.isCandidate) := by
  cases ends with
  | done reached none =>
    have used := reached.countP_isCandidate
    rw [List.countP_eq_zero.2 fun op mem => by simp [Graph.lastCandidate?_eq_none none op mem],
      Nat.zero_add] at used
    rw [used]
  | failed reached last failed =>
    obtain ⟨op, found, candidate, -⟩ := Graph.lastCandidate?_eq_some last
    obtain ⟨k, fused⟩ := (reached.wellFormed wellFormed).exists_fuseAt f _ found candidate
    rw [failed] at fused
    cases fused

end Fusion

/-- Fusing a graph that edits have built either fails with an error, which is no abort, and leaves it as
it is, or fuses every operator that can be written as a formula: those of an inlinable kind, constants
only with a literal value.  Once the graph is valid, nothing that fusion asks of it on the way can
fail. -/
theorem Graph.fuse_all_or_nothing {g : Graph} (built : g.Built) (foldable : List String) :
    ((∃ error, g.fuse foldable = ⟨g, .error error⟩ ∧ ∀ cause, error ≠ .abort cause) ∨
      (g.fuse foldable).result = .ok (g.operators.countP Operator.isCandidate) ∧
        ∀ op ∈ g.operators, op.isCandidate = true ↔ op.kind.isInlinable = true ∧
          (op.kind = .constant → ∃ literal, op.params.get? "value" = some (.literal literal))) ∧
    (g.validate = .ok () → ∀ (n : Nat) (h : Graph),
      Fusion.Reaches { foldable := foldable } g n h →
        Fusion.Answers { foldable := foldable } h) := by
  constructor
  · cases valid : g.validate with
    | error error =>
      refine .inl ⟨error, by rw [fuse, valid], ?_⟩
      rintro cause rfl
      have never : AbortsOnly (fun _ => False) g.validate := built.linked.abortsOnly_validate
      exact never cause valid
    | ok =>
      have wellFormed := wellFormed_of_validate built.linked valid
      refine .inr ⟨?_, fun op mem => ?_⟩
      · rw [fuse, valid]
        exact (Fusion.ends_run _ g).result_eq_ok wellFormed
      · rw [op.isCandidate_iff]
        refine and_congr_right fun _ => forall_congr' fun constant => ?_
        obtain ⟨value, found⟩ := wellFormed.determined.valued op mem constant
        unfold Operator.value at found ⊢
        cases stored : op.params.get? "value" <;> simp_all
  · intro valid n h reached
    exact Fusion.answers_of_wellFormed _
      (reached.wellFormed (wellFormed_of_validate built.linked valid))

/-! ## A graph with a shared value -/

/-- The sum of the absolute value of an input with itself, scaled by one. -/
def Graph.doubledAbs : Graph where
  operators :=
    [{ kind := .input, name := "in", outputs := [⟨0⟩] },
     { kind := .constant, name := "one", outputs := [⟨1⟩]
       params := .singleton "value" (.literal (.int 1)) },
     { kind := .unary .abs, name := "abs", inputs := [⟨0⟩], outputs := [⟨2⟩] },
     { kind := .add, name := "sum", inputs := [⟨2⟩, ⟨2⟩, ⟨1⟩], outputs := [⟨3⟩] },
     { kind := .output, name := "out", inputs := [⟨3⟩] }]
  operands :=
    [⟨"x", some ⟨0⟩, [⟨2⟩]⟩, ⟨"alpha", some ⟨1⟩, [⟨3⟩]⟩, ⟨"y", some ⟨2⟩, [⟨3⟩, ⟨3⟩]⟩,
     ⟨"z", some ⟨3⟩, [⟨4⟩]⟩]

theorem Graph.built_doubledAbs : doubledAbs.Built := by
  have run : doubledAbs.operators.foldlM (fun g op => (g.pushOperator op).map Prod.fst)
      (empty.pushOperands ["x", "alpha", "y", "z"]).1 = .ok doubledAbs := rfl
  exact (Built.empty.pushOperands _).pushOperators run

theorem Graph.fuse_all_or_nothing_doubledAbs :
    doubledAbs.Built ∧ doubledAbs.validate = .ok () ∧ (doubledAbs.fuse []).result = .ok 3 ∧
      ∀ (n : Nat) (h : Graph), Fusion.Reaches {} doubledAbs n h → Fusion.Answers {} h := by
  obtain ⟨outcome, answers⟩ := fuse_all_or_nothing built_doubledAbs []
  refine ⟨built_doubledAbs, rfl, ?_, answers rfl⟩
  rcases outcome with ⟨error, failed, -⟩ | ⟨fused, -⟩
  · cases failed
  · exact fused

end FormulaFusion
