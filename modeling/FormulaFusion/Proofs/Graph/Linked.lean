import Mathlib.Data.List.Count
import FormulaFusion.Graph.Links
import FormulaFusion.Proofs.Graph.Edits

/-!
# Links of graphs built by edits

The operators of a graph agree with its records (`Graph.Agrees`) if inputs exist, outputs record their
operator as producer, and an operand has one consumer entry for every input slot that names it.  The
graph is `Linked` if, in addition, a recorded producer lists the operand.  Every edit that leaves the
inputs and outputs of operators alone keeps both, so they hold of every graph that is `Built` from the
empty one.  Where operators may be changed in any way, what remains of all this is that producers exist
(`Graph.Edited.producer_lt`).
-/

namespace FormulaFusion

namespace Graph

/-- The number of input slots of an operator that name an operand. -/
def uses (g : Graph) (q : OperatorId) (a : OperandId) : Nat :=
  match g.operators[q.index]? with
  | some op => op.inputs.count a
  | none => 0

theorem uses_of_operators {g : Graph} {q : OperatorId} {op : Operator}
    (found : g.operators[q.index]? = some op) (a : OperandId) :
    g.uses q a = op.inputs.count a := by
  simp [uses, found]

theorem uses_eq_zero {g : Graph} {q : OperatorId} (beyond : g.operators[q.index]? = none)
    (a : OperandId) : g.uses q a = 0 := by
  simp [uses, beyond]

/-- Operator `p` has `a` among its outputs. -/
def Lists (g : Graph) (p : OperatorId) (a : OperandId) : Prop :=
  ∃ op, g.operators[p.index]? = some op ∧ a ∈ op.outputs

/-- The operators of a graph agree with its records: inputs exist, outputs record their operator,
and an operand has one consumer entry for every input slot that names it. -/
structure Agrees (g : Graph) : Prop where
  input_known : ∀ {q : Nat} {op : Operator}, g.operators[q]? = some op → ∀ a ∈ op.inputs,
    a.index < g.operands.length
  producer : ∀ {a : OperandId} {p : OperatorId}, g.Lists p a → g.producer a = .ok p
  consumers : ∀ {a : OperandId} {operand : Operand}, g.operands[a.index]? = some operand →
    ∀ q, operand.consumers.count q = g.uses q a

/-- The records of a graph agree with its operators, also in that a recorded producer lists the
operand. -/
structure Linked (g : Graph) : Prop extends Agrees g where
  listed : ∀ {a : OperandId} {p : OperatorId}, g.producer a = .ok p → g.Lists p a

theorem Linked.producer_iff {g : Graph} (linked : g.Linked) {a : OperandId} {p : OperatorId} :
    g.producer a = .ok p ↔ ∃ op, g.operators[p.index]? = some op ∧ a ∈ op.outputs :=
  ⟨linked.listed, linked.producer⟩

/-- What linked graphs have over agreeing ones is that a recorded producer lists the operand. -/
theorem linked_iff (g : Graph) :
    g.Linked ↔ g.Agrees ∧ ∀ a p, g.producer a = .ok p → g.Lists p a :=
  ⟨fun linked => ⟨linked.toAgrees, fun _ _ => linked.listed⟩,
    fun ⟨agrees, listed⟩ => ⟨agrees, listed _ _⟩⟩

/-! ## Single edits -/

theorem linked_empty : empty.Linked where
  input_known found := by simp [empty] at found
  producer lists := by simp [Lists, empty] at lists
  consumers found := by simp [empty] at found
  listed recorded := by simp [producer_eq_ok_iff, empty] at recorded

/-- A new operand has no producer, and all others keep theirs. -/
theorem producer_pushOperand_iff (g : Graph) (name : String) (a : OperandId) (p : OperatorId) :
    (g.pushOperand name).1.producer a = .ok p ↔ g.producer a = .ok p := by
  have lookup := getElem?_append_singleton_eq_some_iff g.operands ⟨name, none, []⟩
  rw [producer_eq_ok_iff, producer_eq_ok_iff]
  constructor
  · rintro ⟨operand, found, recorded⟩
    rcases (lookup _ _).1 found with old | ⟨-, rfl⟩
    · exact ⟨operand, old, recorded⟩
    · cases recorded
  · rintro ⟨operand, found, recorded⟩
    exact ⟨operand, (lookup _ _).2 (.inl found), recorded⟩

theorem Agrees.pushOperand {g : Graph} (agrees : g.Agrees) (name : String) :
    (g.pushOperand name).1.Agrees := by
  have lookup := getElem?_append_singleton_eq_some_iff g.operands ⟨name, none, []⟩
  constructor
  · intro q op found a mem
    have := agrees.input_known found a mem
    simp only [Graph.pushOperand, List.length_append, List.length_singleton]
    omega
  · intro a p lists
    exact (producer_pushOperand_iff g name a p).2 (agrees.producer lists)
  · intro a operand found q
    change operand.consumers.count q = g.uses q a
    rcases (lookup _ _).1 found with old | ⟨here, rfl⟩
    · exact agrees.consumers old q
    · -- No input slot names the new operand, whose position did not exist.
      unfold uses
      cases look : g.operators[q.index]? with
      | none => rfl
      | some op =>
        refine (List.count_eq_zero.2 fun mem => ?_).symm
        have := agrees.input_known look a mem
        omega

theorem Linked.pushOperand {g : Graph} (linked : g.Linked) (name : String) :
    (g.pushOperand name).1.Linked where
  toAgrees := linked.toAgrees.pushOperand name
  listed {a p} recorded := linked.listed ((producer_pushOperand_iff g name a p).1 recorded)

/-- A new operator is recorded as the producer of its outputs; all other records stay. -/
theorem producer_pushOperator_iff {g h : Graph} {op : Operator} {id : OperatorId}
    (pushed : g.pushOperator op = .ok (h, id)) (a : OperandId) (p : OperatorId) :
    h.producer a = .ok p ↔ a ∈ op.outputs ∧ p = id ∨ a ∉ op.outputs ∧ g.producer a = .ok p := by
  obtain ⟨-, outputs, rfl, rfl⟩ := (g.pushOperator_eq_ok_iff h op id).1 pushed
  refine producer_produce_attach g _ _ op (fun b mem => ?_) a p
  obtain ⟨operand, found, -⟩ := outputs b mem
  exact ⟨operand, found⟩

theorem Agrees.pushOperator {g h : Graph} (agrees : g.Agrees) {op : Operator} {id : OperatorId}
    (pushed : g.pushOperator op = .ok (h, id)) : h.Agrees := by
  have producer := producer_pushOperator_iff pushed
  obtain ⟨inputs, outputs, rfl, rfl⟩ := (g.pushOperator_eq_ok_iff h op id).1 pushed
  have lookup := getElem?_append_singleton_eq_some_iff g.operators op
  constructor
  · intro q op' found a mem
    rw [length_operands_attach, length_operands_produce]
    rcases (lookup _ _).1 found with old | ⟨-, rfl⟩
    · exact agrees.input_known old a mem
    · exact inputs a mem
  · rintro a p ⟨op', found, mem⟩
    rw [producer]
    rcases (lookup _ _).1 found with old | ⟨here, rfl⟩
    · -- An operand with a producer is no output of the new operator.
      have recorded := agrees.producer ⟨op', old, mem⟩
      refine .inr ⟨fun mem' => ?_, recorded⟩
      obtain ⟨operand, found', fresh⟩ := outputs a mem'
      obtain ⟨operand', found'', recorded'⟩ := (g.producer_eq_ok_iff a p).1 recorded
      obtain rfl : operand = operand' := Option.some.inj (found'.symm.trans found'')
      rw [fresh] at recorded'
      cases recorded'
    · exact .inl ⟨mem, OperatorId.eq_of_index here⟩
  · intro a operand found q
    rw [getElem?_operands_attach, getElem?_operands_produce, Option.map_map,
      Option.map_eq_some_iff] at found
    obtain ⟨old, known, rfl⟩ := found
    have before := agrees.consumers known q
    have kept : (if a ∈ op.outputs then { old with producer := some ⟨g.operators.length⟩ }
        else old).consumers = old.consumers := by
      split_ifs <;> rfl
    simp only [Function.comp_apply, List.count_append, List.count_replicate, kept, before]
    by_cases here : q = ⟨g.operators.length⟩
    · subst here
      rw [uses_eq_zero (by simp), uses_of_operators ((lookup _ _).2 (.inr ⟨rfl, rfl⟩))]
      simp
    · have same : (g.operators ++ [op])[q.index]? = g.operators[q.index]? := by
        refine Option.ext fun op' => (lookup _ _).trans (or_iff_left ?_)
        rintro ⟨last, -⟩
        exact here (OperatorId.eq_of_index last)
      simp [uses, same, Ne.symm here]

theorem Linked.pushOperator {g h : Graph} (linked : g.Linked) {op : Operator} {id : OperatorId}
    (pushed : g.pushOperator op = .ok (h, id)) : h.Linked := by
  refine ⟨linked.toAgrees.pushOperator pushed, fun {a p} recorded => ?_⟩
  have producer := (producer_pushOperator_iff pushed a p).1 recorded
  obtain ⟨-, -, rfl, rfl⟩ := (g.pushOperator_eq_ok_iff h op id).1 pushed
  have lookup := getElem?_append_singleton_eq_some_iff g.operators op
  rcases producer with ⟨mem, rfl⟩ | ⟨-, old⟩
  · exact ⟨op, (lookup _ _).2 (.inr ⟨rfl, rfl⟩), mem⟩
  · obtain ⟨op', found, mem⟩ := linked.listed old
    exact ⟨op', (lookup _ _).2 (.inl found), mem⟩

/-- An operator that keeps its outputs can be replaced without a change to what is listed. -/
theorem lists_set_iff {g h : Graph} {id : OperatorId} {old new : Operator}
    (found : g.operators[id.index]? = some old)
    (operators : h.operators = g.operators.set id.index new) (outputs : new.outputs = old.outputs)
    (p : OperatorId) (a : OperandId) : h.Lists p a ↔ g.Lists p a := by
  have below := (List.getElem?_eq_some_iff.1 found).1
  simp only [Lists, operators, List.getElem?_set]
  by_cases here : id.index = p.index
  · rw [if_pos here, if_pos (here ▸ below), ← here, found]
    simp [outputs]
  · rw [if_neg here]

theorem lists_rewire_iff {g h : Graph} {id : OperatorId} {inputs : List OperandId}
    (rewired : g.rewire id inputs = .ok h) (p : OperatorId) (a : OperandId) :
    h.Lists p a ↔ g.Lists p a := by
  obtain ⟨op, found, -, -, rfl⟩ := (g.rewire_eq_ok_iff h id inputs).1 rewired
  refine lists_set_iff found rfl ?_ p a
  rfl

theorem producer_rewire {g h : Graph} {id : OperatorId} {inputs : List OperandId}
    (rewired : g.rewire id inputs = .ok h) (a : OperandId) : h.producer a = g.producer a := by
  obtain ⟨op, -, -, -, rfl⟩ := (g.rewire_eq_ok_iff h id inputs).1 rewired
  refine producer_congr (fun i => ?_) a
  rw [getElem?_operands_attach, getElem?_operands_detach]
  cases g.operands[i]? <;> rfl

theorem Agrees.rewire {g h : Graph} (agrees : g.Agrees) {id : OperatorId} {inputs : List OperandId}
    (rewired : g.rewire id inputs = .ok h) : h.Agrees := by
  refine ⟨?_, ?_, ?_⟩
  · obtain ⟨op, found, known, -, rfl⟩ := (g.rewire_eq_ok_iff h id inputs).1 rewired
    intro q op' found' a mem
    rw [length_operands_attach, length_operands_detach]
    rw [List.getElem?_set] at found'
    split_ifs at found' with here
    · obtain rfl := Option.some.inj found'
      exact known a mem
    · exact agrees.input_known found' a mem
  · intro a p lists
    rw [producer_rewire rewired, agrees.producer ((lists_rewire_iff rewired p a).1 lists)]
  · obtain ⟨op, found, -, -, rfl⟩ := (g.rewire_eq_ok_iff h id inputs).1 rewired
    have below := (List.getElem?_eq_some_iff.1 found).1
    intro a operand found' q
    rw [getElem?_operands_attach, getElem?_operands_detach, Option.map_map,
      Option.map_eq_some_iff] at found'
    obtain ⟨old, known', rfl⟩ := found'
    have before := agrees.consumers known' q
    simp only [Function.comp_apply, List.count_append, List.count_diff, List.count_replicate,
      before]
    by_cases here : q = id
    · subst here
      have now : (g.operators.set q.index { op with inputs := inputs })[q.index]? =
          some { op with inputs := inputs } := by simp [below]
      rw [uses_of_operators found, uses_of_operators now]
      simp
    · have apart : id.index ≠ q.index := fun e => here (OperatorId.eq_of_index e.symm)
      simp [uses, apart, Ne.symm here]

theorem Linked.rewire {g h : Graph} (linked : g.Linked) {id : OperatorId} {inputs : List OperandId}
    (rewired : g.rewire id inputs = .ok h) : h.Linked := by
  refine ⟨linked.toAgrees.rewire rewired, fun {a p} recorded => ?_⟩
  rw [producer_rewire rewired] at recorded
  exact (lists_rewire_iff rewired p a).2 (linked.listed recorded)

theorem lists_modifyOperator_iff {g h : Graph} {id : OperatorId} {f : Operator → Operator}
    (outputs : ∀ op, (f op).outputs = op.outputs) (modified : g.modifyOperator id f = .ok h)
    (p : OperatorId) (a : OperandId) : h.Lists p a ↔ g.Lists p a := by
  obtain ⟨op, found, rfl⟩ := (g.modifyOperator_eq_ok_iff h id f).1 modified
  exact lists_set_iff found rfl (outputs op) p a

theorem producer_modifyOperator {g h : Graph} {id : OperatorId} {f : Operator → Operator}
    (modified : g.modifyOperator id f = .ok h) (a : OperandId) : h.producer a = g.producer a := by
  obtain ⟨op, -, rfl⟩ := (g.modifyOperator_eq_ok_iff h id f).1 modified
  rfl

theorem Agrees.modifyOperator {g h : Graph} (agrees : g.Agrees) {id : OperatorId}
    {f : Operator → Operator}
    (frame : ∀ op, (f op).inputs = op.inputs ∧ (f op).outputs = op.outputs)
    (modified : g.modifyOperator id f = .ok h) : h.Agrees := by
  refine ⟨?_, ?_, ?_⟩
  · obtain ⟨op, found, rfl⟩ := (g.modifyOperator_eq_ok_iff h id f).1 modified
    intro q op' found' a mem
    rw [List.getElem?_set] at found'
    split_ifs at found' with here
    · obtain rfl := Option.some.inj found'
      rw [(frame op).1] at mem
      exact agrees.input_known found a mem
    · exact agrees.input_known found' a mem
  · intro a p lists
    rw [producer_modifyOperator modified]
    exact agrees.producer ((lists_modifyOperator_iff (fun op => (frame op).2) modified p a).1 lists)
  · obtain ⟨op, found, rfl⟩ := (g.modifyOperator_eq_ok_iff h id f).1 modified
    have below := (List.getElem?_eq_some_iff.1 found).1
    intro a operand found' q
    rw [agrees.consumers found' q]
    by_cases here : id.index = q.index
    · have now : (g.operators.set id.index (f op))[q.index]? = some (f op) := by
        simp [here, here ▸ below]
      rw [uses_of_operators (here ▸ found), uses_of_operators now, (frame op).1]
    · simp [uses, here]

theorem Linked.modifyOperator {g h : Graph} (linked : g.Linked) {id : OperatorId}
    {f : Operator → Operator}
    (frame : ∀ op, (f op).inputs = op.inputs ∧ (f op).outputs = op.outputs)
    (modified : g.modifyOperator id f = .ok h) : h.Linked := by
  refine ⟨linked.toAgrees.modifyOperator frame modified, fun {a p} recorded => ?_⟩
  rw [producer_modifyOperator modified] at recorded
  exact (lists_modifyOperator_iff (fun op => (frame op).2) modified p a).2 (linked.listed recorded)

/-! ## Histories of edits -/

/-- The graph comes from the empty one by adding operands and operators, rewiring operators, and
changing operators without touching their inputs and outputs. -/
inductive Built : Graph → Prop
  | empty : Built empty
  | pushOperand {g : Graph} (name : String) : Built g → Built (g.pushOperand name).1
  | pushOperator {g h : Graph} {op : Operator} {id : OperatorId} :
      Built g → g.pushOperator op = .ok (h, id) → Built h
  | rewire {g h : Graph} {id : OperatorId} {inputs : List OperandId} :
      Built g → g.rewire id inputs = .ok h → Built h
  | modifyOperator {g h : Graph} {id : OperatorId} {f : Operator → Operator} :
      Built g → (∀ op, (f op).inputs = op.inputs ∧ (f op).outputs = op.outputs) →
        g.modifyOperator id f = .ok h → Built h

/-- Every edit keeps the links, so they agree in every graph that edits can build. -/
theorem Built.linked {g : Graph} (built : g.Built) : g.Linked := by
  induction built with
  | empty => exact linked_empty
  | pushOperand name _ ih => exact ih.pushOperand name
  | pushOperator _ pushed ih => exact ih.pushOperator pushed
  | rewire _ rewired ih => exact ih.rewire rewired
  | modifyOperator _ frame modified ih => exact ih.modifyOperator frame modified

theorem Built.pushOperands {g : Graph} (built : g.Built) (names : List String) :
    (g.pushOperands names).1.Built := by
  unfold Graph.pushOperands
  apply List.foldlRecOn (motive := fun state : Graph × List OperandId => state.1.Built)
  · exact built
  intro state built name _
  exact built.pushOperand name

theorem Built.pushOperators {g h : Graph} (built : g.Built) {ops : List Operator}
    (run : ops.foldlM (fun g op => (g.pushOperator op).map Prod.fst) g = .ok h) : h.Built := by
  induction ops generalizing g with
  | nil =>
    cases run
    exact built
  | cons op rest ih =>
    obtain ⟨k, pushed, others⟩ := (bind_eq_ok_iff ((g.pushOperator op).map Prod.fst) _ h).1 run
    obtain ⟨⟨_, id⟩, added, rfl⟩ := (map_eq_ok_iff _ _ _).1 pushed
    exact ih (built.pushOperator added) others

/-- The graph comes from the empty one by the same edits, where operators may be changed in any way:
also their inputs and outputs, so that its links need not agree.  Fusion, too, consists of such
edits. -/
inductive Edited : Graph → Prop
  | empty : Edited empty
  | pushOperand {g : Graph} (name : String) : Edited g → Edited (g.pushOperand name).1
  | pushOperator {g h : Graph} {op : Operator} {id : OperatorId} :
      Edited g → g.pushOperator op = .ok (h, id) → Edited h
  | rewire {g h : Graph} {id : OperatorId} {inputs : List OperandId} :
      Edited g → g.rewire id inputs = .ok h → Edited h
  | modifyOperator {g h : Graph} {id : OperatorId} {f : Operator → Operator} :
      Edited g → g.modifyOperator id f = .ok h → Edited h

theorem Built.edited {g : Graph} (built : g.Built) : g.Edited := by
  induction built with
  | empty => exact .empty
  | pushOperand name _ ih => exact ih.pushOperand name
  | pushOperator _ pushed ih => exact ih.pushOperator pushed
  | rewire _ rewired ih => exact ih.rewire rewired
  | modifyOperator _ _ modified ih => exact ih.modifyOperator modified

/-- Operators record themselves when they are added and are never removed, so every recorded producer
is an operator of the graph. -/
theorem Edited.producer_lt {g : Graph} (edited : g.Edited) {a : OperandId} {p : OperatorId}
    (recorded : g.producer a = .ok p) : p.index < g.operators.length := by
  induction edited generalizing a p with
  | empty =>
    obtain ⟨operand, found, -⟩ := (producer_eq_ok_iff _ a p).1 recorded
    cases found
  | @pushOperand g name _ ih => exact ih ((producer_pushOperand_iff g name a p).1 recorded)
  | @pushOperator g h op id _ pushed ih =>
    have producer := (producer_pushOperator_iff pushed a p).1 recorded
    obtain ⟨-, -, rfl, rfl⟩ := (g.pushOperator_eq_ok_iff h op id).1 pushed
    rw [List.length_append, List.length_singleton]
    rcases producer with ⟨-, rfl⟩ | ⟨-, old⟩
    · exact Nat.lt_succ_self _
    · exact Nat.lt_succ_of_lt (ih old)
  | @rewire g h id inputs _ rewired ih =>
    obtain ⟨op, -, -, -, rfl⟩ := (g.rewire_eq_ok_iff h id inputs).1 rewired
    rw [producer_rewire rewired] at recorded
    simpa using ih recorded
  | @modifyOperator g h id f _ modified ih =>
    obtain ⟨op, -, rfl⟩ := (g.modifyOperator_eq_ok_iff h id f).1 modified
    simpa using ih recorded

end Graph

end FormulaFusion
