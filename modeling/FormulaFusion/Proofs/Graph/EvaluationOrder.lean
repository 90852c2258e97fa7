import FormulaFusion.Proofs.Graph.Validity
import FormulaFusion.Proofs.Precedence.Stack

/-!
# Evaluation orders are topological

If the inputs of all operators are produced in the graph, then the operators have an evaluation order
exactly if none depends on itself.  The order lists every operator once, each one after those that it
reads; without an order the failure is a cycle (`Graph.Sourced.topological_or_cycle`), and the operator
that it names lies on one (`Graph.Sourced.dependsOn_self_of_cycle`).  All this holds of the search with
a stack as well, since it comes to the same results (`Graph.StackOrders`).
-/

open Relation

namespace FormulaFusion

namespace Graph

/-- The operators of a graph, sorted by the two searches with a stack, give an order or name an
operator on a cycle. -/
def StackOrders (g : Graph) (outcome : Except Error (List OperatorId)) : Prop :=
  ∃ pairs result, g.dependencies = .ok pairs ∧
    (Precedence.mk g.operatorIds pairs).StackSorts result ∧
    outcome = result.mapError fun id => .cycle (g.operatorName id) id

theorem evaluationOrder_of_dependencies {g : Graph} {pairs : List (OperatorId × OperatorId)}
    (dependencies : g.dependencies = .ok pairs) :
    g.evaluationOrder = (Precedence.mk g.operatorIds pairs).sort.mapError fun id =>
      .cycle (g.operatorName id) id := by
  rw [evaluationOrder, dependencies, bind_ok]
  cases (Precedence.mk g.operatorIds pairs).sort <;> rfl

theorem nodup_operatorIds (g : Graph) : g.operatorIds.Nodup :=
  List.nodup_range.map fun _ _ same => congrArg OperatorId.index same

namespace Sourced

variable {g : Graph}

/-- An evaluation order lists every operator once, after those that it reads. -/
theorem topological_of_evaluationOrder (sourced : g.Sourced) {order : List OperatorId}
    (ordered : g.evaluationOrder = .ok order) : g.Topological order := by
  obtain ⟨pairs, dependencies, sorted⟩ := (g.evaluationOrder_eq_ok_iff order).1 ordered
  refine ⟨?_, fun q p reads => idxOf_lt_idxOf_of_reads ordered reads⟩
  exact Precedence.perm_items_of_sort (sourced.closed_dependencies dependencies)
    g.nodup_operatorIds sorted

/-- Only a cycle leaves the operators without an order. -/
theorem exists_cycle_of_not_acyclic (sourced : g.Sourced) (cyclic : ¬g.Acyclic) :
    ∃ id, g.evaluationOrder = .error (.cycle (g.operatorName id) id) := by
  obtain ⟨pairs, dependencies⟩ := g.exists_dependencies_iff.2 sourced
  have outcome := evaluationOrder_of_dependencies dependencies
  cases sorted : (Precedence.mk g.operatorIds pairs).sort with
  | ok order =>
    rw [sorted] at outcome
    exact absurd (acyclic_of_evaluationOrder outcome) cyclic
  | error id =>
    rw [sorted] at outcome
    exact ⟨id, outcome⟩

/-- The two searches with a stack come to the evaluation order and to nothing else. -/
theorem stackOrders_iff (sourced : g.Sourced) (outcome : Except Error (List OperatorId)) :
    g.StackOrders outcome ↔ g.evaluationOrder = outcome := by
  obtain ⟨pairs, dependencies⟩ := g.exists_dependencies_iff.2 sourced
  have sorts := Precedence.stackSorts_iff (sourced.closed_dependencies dependencies)
  rw [evaluationOrder_of_dependencies dependencies]
  constructor
  · rintro ⟨pairs', result, dependencies', stackSorts, rfl⟩
    obtain rfl : pairs = pairs' := Except.ok.inj (dependencies.symm.trans dependencies')
    rw [(sorts result).1 stackSorts]
  · rintro rfl
    exact ⟨pairs, _, dependencies, (sorts _).2 rfl, rfl⟩

/-- If all inputs are produced in the graph, the operators have an evaluation order exactly if none
depends on itself; the order lists every operator once, after the producers of its inputs; and
without an order the failure is a cycle.  The two searches with a stack have this outcome and no
other. -/
theorem topological_or_cycle (sourced : g.Sourced) :
    ((∃ order, g.evaluationOrder = .ok order) ↔ g.Acyclic) ∧
    (∀ order, g.evaluationOrder = .ok order → order.Perm g.operatorIds ∧
      ∀ q p, g.Reads q p → order.idxOf p < order.idxOf q) ∧
    (¬g.Acyclic → ∃ id, g.evaluationOrder = .error (.cycle (g.operatorName id) id)) ∧
    ∀ outcome, g.StackOrders outcome ↔ g.evaluationOrder = outcome :=
  ⟨g.exists_evaluationOrder_iff.trans (and_iff_right sourced),
    fun _ => sourced.topological_of_evaluationOrder, sourced.exists_cycle_of_not_acyclic,
    sourced.stackOrders_iff⟩

/-- A failure that names an operator comes from sorting the dependencies, and sorting names it. -/
theorem exists_sort_eq_error (sourced : g.Sourced) {name : String} {id : OperatorId}
    (failed : g.evaluationOrder = .error (.cycle name id)) :
    ∃ pairs, g.dependencies = .ok pairs ∧ name = g.operatorName id ∧
      (Precedence.mk g.operatorIds pairs).sort = .error id := by
  obtain ⟨pairs, dependencies⟩ := g.exists_dependencies_iff.2 sourced
  rw [evaluationOrder_of_dependencies dependencies] at failed
  cases sorted : (Precedence.mk g.operatorIds pairs).sort with
  | ok order =>
    rw [sorted] at failed
    cases failed
  | error id' =>
    rw [sorted] at failed
    obtain ⟨rfl, rfl⟩ := Error.cycle.inj (Except.error.inj failed)
    exact ⟨pairs, dependencies, rfl, sorted⟩

/-- If all inputs are produced in the graph, the operator that is named in place of an order lies on a
cycle: it is computed from its own outputs.  This is so for the two searches with a stack as well,
where the second one also meets operators that only lead to a cycle. -/
theorem dependsOn_self_of_cycle (sourced : g.Sourced) {name : String} {id : OperatorId}
    (failed : g.evaluationOrder = .error (.cycle name id) ∨
      g.StackOrders (.error (.cycle name id))) :
    g.DependsOn id id ∧ id.index < g.operators.length ∧ name = g.operatorName id := by
  rw [sourced.stackOrders_iff, or_self] at failed
  obtain ⟨pairs, dependencies, named, sorted⟩ := sourced.exists_sort_eq_error failed
  have leads := Precedence.leads_self_of_sort (sourced.closed_dependencies dependencies) sorted
  have cycle : g.DependsOn id id := dependsOn_of_leads dependencies leads
  obtain ⟨p, reads, -⟩ := TransGen.head'_iff.1 cycle
  obtain ⟨op, -, found, -⟩ := reads
  exact ⟨cycle, (List.getElem?_eq_some_iff.1 found).1, named⟩

end Sourced

/-! ## A graph with feedback -/

/-- An input, and two operators that read each other. -/
def feedback : Graph where
  operators :=
    [{ kind := .input, name := "in", outputs := [⟨0⟩] },
     { kind := .unary .neg, name := "neg", inputs := [⟨2⟩], outputs := [⟨1⟩] },
     { kind := .unary .abs, name := "abs", inputs := [⟨1⟩], outputs := [⟨2⟩] }]
  operands := [⟨"x", some ⟨0⟩, []⟩, ⟨"y", some ⟨1⟩, [⟨2⟩]⟩, ⟨"z", some ⟨2⟩, [⟨1⟩]⟩]

/-- A sum of a later operator's output with itself, beside an operator on its own. -/
def sumBeforeInput : Graph where
  operators :=
    [{ kind := .binary .mul, name := "square", inputs := [⟨1⟩, ⟨1⟩], outputs := [⟨0⟩] },
     { kind := .input, name := "in", outputs := [⟨1⟩] },
     { kind := .other "aten::rand", name := "rand", outputs := [⟨2⟩] }]
  operands := [⟨"y", some ⟨0⟩, []⟩, ⟨"x", some ⟨1⟩, [⟨0⟩, ⟨0⟩]⟩, ⟨"r", some ⟨2⟩, []⟩]

theorem Sourced.topological_or_cycle_feedback :
    (feedback.Sourced ∧ ¬feedback.Acyclic ∧
      ∃ id, feedback.evaluationOrder = .error (.cycle (feedback.operatorName id) id)) ∧
    sumBeforeInput.Sourced ∧ sumBeforeInput.evaluationOrder = .ok [⟨2⟩, ⟨1⟩, ⟨0⟩] ∧
      sumBeforeInput.Acyclic ∧ sumBeforeInput.StackOrders (.ok [⟨2⟩, ⟨1⟩, ⟨0⟩]) := by
  have sourced : feedback.Sourced := feedback.exists_dependencies_iff.1 ⟨_, rfl⟩
  have cyclic : ¬feedback.Acyclic := by
    intro acyclic
    have first : feedback.Reads ⟨1⟩ ⟨2⟩ := ⟨_, ⟨2⟩, rfl, List.mem_singleton.2 rfl, rfl⟩
    have second : feedback.Reads ⟨2⟩ ⟨1⟩ := ⟨_, ⟨1⟩, rfl, List.mem_singleton.2 rfl, rfl⟩
    exact acyclic ⟨1⟩ (.head first (.single second))
  have sourced' : sumBeforeInput.Sourced := sumBeforeInput.exists_dependencies_iff.1 ⟨_, rfl⟩
  obtain ⟨-, -, failure, -⟩ := topological_or_cycle sourced
  obtain ⟨acyclic, -, -, stack⟩ := topological_or_cycle sourced'
  exact ⟨⟨sourced, cyclic, failure cyclic⟩, sourced', rfl, acyclic.1 ⟨_, rfl⟩, (stack _).2 rfl⟩

/-- An input, two operators that read each other, and one behind them; only the two lie on a cycle. -/
def fedLoop : Graph where
  operators :=
    [{ kind := .input, name := "in", outputs := [⟨0⟩] },
     { kind := .binary .mul, name := "mul", inputs := [⟨0⟩, ⟨2⟩], outputs := [⟨1⟩] },
     { kind := .unary .abs, name := "abs", inputs := [⟨1⟩], outputs := [⟨2⟩] },
     { kind := .unary .neg, name := "neg", inputs := [⟨2⟩], outputs := [⟨3⟩] }]
  operands := [⟨"x", some ⟨0⟩, [⟨1⟩]⟩, ⟨"y", some ⟨1⟩, [⟨2⟩]⟩, ⟨"z", some ⟨2⟩, [⟨1⟩, ⟨3⟩]⟩,
    ⟨"w", some ⟨3⟩, []⟩]

theorem Sourced.dependsOn_self_of_cycle_fedLoop :
    fedLoop.Sourced ∧ fedLoop.evaluationOrder = .error (.cycle "abs" ⟨2⟩) ∧
      fedLoop.StackOrders (.error (.cycle "abs" ⟨2⟩)) ∧ fedLoop.DependsOn ⟨2⟩ ⟨2⟩ := by
  have sourced : fedLoop.Sourced := fedLoop.exists_dependencies_iff.1 ⟨_, rfl⟩
  have failed : fedLoop.evaluationOrder = .error (.cycle "abs" ⟨2⟩) := rfl
  exact ⟨sourced, failed, (sourced.stackOrders_iff _).2 failed,
    (dependsOn_self_of_cycle sourced (.inl failed)).1⟩

end Graph

end FormulaFusion
