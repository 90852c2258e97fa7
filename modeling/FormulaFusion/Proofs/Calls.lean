import FormulaFusion.Proofs.Aborts
import FormulaFusion.Proofs.Fusion.Run

/-!
# Links over whole histories

A `Call` is an edit of a graph or a fusion of it, and `Call.apply` gives the graph that it leaves
behind, whether it succeeds or not.  The graphs that any sequence of calls can make of the empty one
are `Graph.Reachable`.  Every call keeps the links (`Graph.Linked.apply`), and where the links agree no
call aborts (`Graph.Linked.result_ne_abort`); both together hold after every history
(`Graph.Reachable.links_intact`).
-/

namespace FormulaFusion

/-! ## Calls -/

/-- An operation on a graph.  A change of an operator leaves its inputs and outputs alone; handles
may be any. -/
inductive Call where
  | pushOperand (name : String)
  | pushOperator (op : Operator)
  | rewire (id : OperatorId) (inputs : List OperandId)
  | modifyOperator (id : OperatorId) (change : Operator → Operator)
      (frame : ∀ op, (change op).inputs = op.inputs ∧ (change op).outputs = op.outputs)
  | run (f : Fusion)
  | fuse (foldable : List String)

/-- The outcome of an edit, which leaves the graph as it is where it fails. -/
def Outcome.ofEdit (g : Graph) (edited : Except Error Graph) : Outcome Unit :=
  match edited with
  | .ok h => ⟨h, .ok ()⟩
  | .error error => ⟨g, .error error⟩

namespace Call

/-- What a call does to a graph. -/
def apply (g : Graph) : Call → Outcome Unit
  | pushOperand name => ⟨(g.pushOperand name).1, .ok ()⟩
  | pushOperator op => .ofEdit g ((g.pushOperator op).map Prod.fst)
  | rewire id inputs => .ofEdit g (g.rewire id inputs)
  | modifyOperator id change _ => .ofEdit g (g.modifyOperator id change)
  | run f => ⟨(f.run g).graph, (f.run g).result.map fun _ => ()⟩
  | fuse foldable => ⟨(g.fuse foldable).graph, (g.fuse foldable).result.map fun _ => ()⟩

/-- The call comes to an end: fusion without validation may meet a cycle and walk around it for
ever. -/
def Ends (g : Graph) : Call → Prop
  | run f => (f.run g).result ≠ .error (.abort .endlessWalk)
  | _ => True

end Call

/-- The graph comes from the empty one by a sequence of calls, each of which may succeed or fail. -/
inductive Graph.Reachable : Graph → Prop
  | empty : Reachable empty
  | call {g : Graph} (call : Call) : Reachable g → call.Ends g → Reachable (call.apply g).graph

/-! ## Links -/

/-- An edit that keeps the links where it succeeds keeps them in any case. -/
theorem Graph.Linked.ofEdit {g : Graph} (linked : g.Linked) {edited : Except Error Graph}
    (kept : ∀ h, edited = .ok h → h.Linked) : (Outcome.ofEdit g edited).graph.Linked := by
  cases edited with
  | ok h => exact kept h rfl
  | error error => exact linked

theorem Fusion.linked_run (f : Fusion) {g : Graph} (linked : g.Linked) : (f.run g).graph.Linked := by
  obtain ⟨n, reached⟩ := (f.ends_run g).exists_reaches
  exact reached.linked linked

namespace Graph

/-- Every call keeps the links. -/
theorem Linked.apply {g : Graph} (linked : g.Linked) (call : Call) :
    (call.apply g).graph.Linked := by
  cases call with
  | pushOperand name => exact linked.pushOperand name
  | pushOperator op =>
    refine linked.ofEdit fun h edited => ?_
    obtain ⟨⟨h, id⟩, pushed, rfl⟩ := (map_eq_ok_iff _ _ _).1 edited
    exact linked.pushOperator pushed
  | rewire id inputs => exact linked.ofEdit fun h => linked.rewire
  | modifyOperator id change frame => exact linked.ofEdit fun h => linked.modifyOperator frame
  | run f => exact f.linked_run linked
  | fuse foldable =>
    change (g.fuse foldable).graph.Linked
    unfold Graph.fuse
    split
    · exact Fusion.linked_run _ linked
    · exact linked

theorem Reachable.linked {g : Graph} (reachable : g.Reachable) : g.Linked := by
  induction reachable with
  | empty => exact linked_empty
  | call call _ _ ih => exact ih.apply call

/-! ## Aborts -/

/-- Where links agree, a step of fusion aborts only if a walk does not end. -/
theorem Agrees.abortsOnly_fuseAt {g : Graph} (agrees : g.Agrees) {allowed : Abort → Prop}
    (walks : allowed .endlessWalk) (f : Fusion) (id : OperatorId) (number : Nat) :
    AbortsOnly allowed (f.fuseAt g id number) := by
  refine (g.abortsOnly_operator id).bind fun op _ => ?_
  refine (op.abortsOnly_output 0).bind fun output _ => ?_
  refine (abortsOnly_fusedFormula walks g f.foldable output).bind fun fused _ => ?_
  exact (agrees.abortsOnly_rewire id fused.inputs).bind fun h _ => h.abortsOnly_modifyOperator id _

theorem Linked.abortsOnly_run {g : Graph} (linked : g.Linked) {allowed : Abort → Prop}
    (walks : allowed .endlessWalk) (f : Fusion) : AbortsOnly allowed (f.run g).result := by
  have ends := f.ends_run g
  generalize f.run g = outcome at ends
  cases ends with
  | done => exact abortsOnly_ok _
  | @failed n h id error reached _ failed =>
    intro cause aborted
    obtain rfl : error = .abort cause := Except.error.inj aborted
    exact (reached.linked linked).toAgrees.abortsOnly_fuseAt walks f id n cause failed

/-- Validation lets only graphs through that fusion does not fail on. -/
theorem Linked.abortsOnly_fuse {g : Graph} (linked : g.Linked) {allowed : Abort → Prop}
    (foldable : List String) : AbortsOnly allowed (g.fuse foldable).result := by
  cases validated : g.validate with
  | error error =>
    rw [fuse, validated]
    intro cause aborted
    obtain rfl : error = .abort cause := Except.error.inj aborted
    exact linked.abortsOnly_validate cause validated
  | ok =>
    have wellFormed := wellFormed_of_validate linked validated
    rw [fuse, validated, (Fusion.ends_run _ g).result_eq_ok wellFormed]
    exact abortsOnly_ok _

/-- Where links agree, no call that comes to an end aborts. -/
theorem Linked.result_ne_abort {g : Graph} (linked : g.Linked) {call : Call} (ends : call.Ends g)
    (cause : Abort) : (call.apply g).result ≠ .error (.abort cause) := by
  have edit : ∀ {edited : Except Error Graph}, AbortsOnly (fun _ => False) edited →
      (Outcome.ofEdit g edited).result ≠ .error (.abort cause) := by
    intro edited never aborted
    cases edited with
    | ok h => cases aborted
    | error error =>
      obtain rfl : error = .abort cause := Except.error.inj aborted
      exact never cause rfl
  cases call with
  | pushOperand name => exact fun aborted => nomatch aborted
  | pushOperator op => exact edit ((g.abortsOnly_pushOperator op).map _)
  | rewire id inputs => exact edit (linked.toAgrees.abortsOnly_rewire id inputs)
  | modifyOperator id change frame => exact edit (g.abortsOnly_modifyOperator id change)
  | run f =>
    intro aborted
    have aborted := (map_eq_error_iff _ _ _).1 aborted
    have only : AbortsOnly (.endlessWalk = ·) (f.run g).result := linked.abortsOnly_run rfl f
    obtain rfl := only cause aborted
    exact ends aborted
  | fuse foldable =>
    have never : AbortsOnly (fun _ => False) (g.fuse foldable).result :=
      linked.abortsOnly_fuse foldable
    exact fun aborted => never cause ((map_eq_error_iff _ _ _).1 aborted)

/-! ## Histories -/

/-- After every sequence of calls, an operand has one consumer entry for every input slot that names
it, records a producer exactly if the producer lists it among its outputs, and all handles are in
range.  So the check of the links succeeds, and no call aborts. -/
theorem Reachable.links_intact {g : Graph} (reachable : g.Reachable) :
    (∀ (a : OperandId) (operand : Operand), g.operands[a.index]? = some operand →
      (∀ q, operand.consumers.count q = g.uses q a) ∧
        ∀ p, operand.producer = some p → g.Lists p a) ∧
    (∀ p a, g.Lists p a → g.producer a = .ok p) ∧
    (∀ op ∈ g.operators, ∀ a ∈ op.inputs ++ op.outputs, a.index < g.operands.length) ∧
    (∀ operand ∈ g.operands, ∀ p, operand.producer = some p ∨ p ∈ operand.consumers →
      p.index < g.operators.length) ∧
    g.verifyLinks = .ok () ∧
    ∀ call : Call, call.Ends g → ∀ cause, (call.apply g).result ≠ .error (.abort cause) := by
  have linked := reachable.linked
  have listed : ∀ (a : OperandId) (operand : Operand), g.operands[a.index]? = some operand →
      ∀ p, operand.producer = some p → g.Lists p a := by
    intro a operand found p recorded
    exact linked.producer_iff.1 ((g.producer_eq_ok_iff a p).2 ⟨operand, found, recorded⟩)
  refine ⟨fun a operand found => ⟨linked.consumers found, listed a operand found⟩,
    fun p a => linked.producer_iff.2, ?_, ?_, g.verifyLinks_eq_ok_iff.2 linked.toAgrees,
    fun call ends => linked.result_ne_abort ends⟩
  · intro op mem a handle
    obtain ⟨p, found⟩ := List.getElem?_of_mem mem
    rcases List.mem_append.1 handle with input | output
    · exact linked.input_known found a input
    · have recorded : g.producer a = .ok ⟨p⟩ := linked.producer_iff.2 ⟨op, found, output⟩
      exact index_lt_of_source ((g.source_eq_ok_iff a op).2 ⟨⟨p⟩, recorded, found⟩)
  · intro operand mem p handle
    obtain ⟨a, found⟩ := List.getElem?_of_mem mem
    rcases handle with recorded | consumer
    · obtain ⟨op, place, -⟩ := listed ⟨a⟩ operand found p recorded
      exact (List.getElem?_eq_some_iff.1 place).1
    · -- An operator that does not exist uses nothing, so it is no consumer.
      by_contra beyond
      have counted := linked.consumers (a := ⟨a⟩) found p
      rw [uses_eq_zero (List.getElem?_eq_none (not_lt.1 beyond))] at counted
      exact List.count_eq_zero.1 counted consumer

end Graph

/-! ## A history with failures -/

/-- The graph that a history leaves behind: a list that reads its own output and an operand without a
producer is added, an operator with an output that is taken is refused, the list is rewired and an
unknown operator is not, the missing producer is added, and the graph is fused. -/
def Graph.pairOfInput : Graph where
  operators :=
    [{ kind := .expression, name := "expr_0", inputs := [⟨0⟩], outputs := [⟨1⟩, ⟨1⟩]
       params := .singleton "expr" (.literal (.string "[@0,@0]")) },
     { kind := .input, name := "in", outputs := [⟨0⟩] }]
  operands := [⟨"x", some ⟨1⟩, [⟨0⟩]⟩, ⟨"y", some ⟨0⟩, []⟩]

theorem Graph.reachable_pairOfInput : pairOfInput.Reachable := by
  have operands := (Reachable.empty.call (.pushOperand "x") trivial).call (.pushOperand "y") trivial
  have list := operands.call (.pushOperator
    { kind := .listConstruct, name := "list", inputs := [⟨0⟩, ⟨1⟩, ⟨0⟩], outputs := [⟨1⟩, ⟨1⟩] })
    trivial
  have refused := list.call (.pushOperator { kind := .output, name := "out", outputs := [⟨1⟩] })
    trivial
  have rewired := refused.call (.rewire ⟨0⟩ [⟨0⟩, ⟨0⟩]) trivial
  have unknown := rewired.call (.rewire ⟨7⟩ []) trivial
  have input := unknown.call (.pushOperator { kind := .input, name := "in", outputs := [⟨0⟩] }) trivial
  exact input.call (.run {}) fun endless => nomatch endless

theorem Graph.Reachable.links_intact_pairOfInput :
    pairOfInput.Reachable ∧ pairOfInput.verifyLinks = .ok () ∧
      ∀ cause, ((Call.fuse []).apply pairOfInput).result ≠ .error (.abort cause) := by
  obtain ⟨-, -, -, -, links, calls⟩ := links_intact reachable_pairOfInput
  exact ⟨reachable_pairOfInput, links, calls (.fuse []) trivial⟩

end FormulaFusion
