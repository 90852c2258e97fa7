import FormulaFusion.Proofs.Expansion

/-!
# Which operations abort

`AbortsOnly` bounds the aborts of a computation and passes through chains of steps.  Looking something
up in a graph never aborts, and a walk from producer to producer aborts only where it does not end
(`Graph.abortsOnly_fusedFormula`).  Rewiring and validation index lists without a check; in a graph
with agreeing links the indices are always there (`Graph.Agrees.abortsOnly_rewire`,
`Graph.Linked.abortsOnly_validate`).
-/

namespace FormulaFusion

/-- If the computation ends in an abort, the cause is an allowed one. -/
def AbortsOnly {α : Type} (allowed : Abort → Prop) (x : Except Error α) : Prop :=
  ∀ cause, x = .error (.abort cause) → allowed cause

variable {α β : Type} {allowed : Abort → Prop}

/-! ## Chains of steps -/

theorem abortsOnly_ok (a : α) : AbortsOnly allowed (.ok a : Except Error α) :=
  fun _ aborted => nomatch aborted

theorem AbortsOnly.bind {x : Except Error α} {f : α → Except Error β} (first : AbortsOnly allowed x)
    (next : ∀ a, x = .ok a → AbortsOnly allowed (f a)) : AbortsOnly allowed (x.bind f) := by
  intro cause aborted
  rcases (bind_eq_error_iff x f _).1 aborted with here | ⟨a, done, later⟩
  · exact first cause here
  · exact next a done cause later

theorem AbortsOnly.map {x : Except Error α} (first : AbortsOnly allowed x) (f : α → β) :
    AbortsOnly allowed (x.map f) :=
  fun cause aborted => first cause ((map_eq_error_iff x f _).1 aborted)

theorem AbortsOnly.mapM {f : α → Except Error β} {as : List α}
    (each : ∀ a ∈ as, AbortsOnly allowed (f a)) : AbortsOnly allowed (as.mapM f) := by
  induction as with
  | nil => exact abortsOnly_ok []
  | cons a rest ih =>
    rw [mapM_cons_eq_bind]
    refine (each a List.mem_cons_self).bind fun b _ => AbortsOnly.map ?_ _
    exact ih fun a' mem => each a' (List.mem_cons_of_mem a mem)

theorem AbortsOnly.anyM {p : α → Except Error Bool} {as : List α}
    (each : ∀ a ∈ as, AbortsOnly allowed (p a)) : AbortsOnly allowed (as.anyM p) := by
  induction as with
  | nil => exact abortsOnly_ok false
  | cons a rest ih =>
    rw [anyM_cons_eq_bind]
    refine (each a List.mem_cons_self).bind fun found _ => ?_
    split_ifs
    · exact abortsOnly_ok true
    · exact ih fun a' mem => each a' (List.mem_cons_of_mem a mem)

theorem AbortsOnly.allM {p : α → Except Error Bool} {as : List α}
    (each : ∀ a ∈ as, AbortsOnly allowed (p a)) : AbortsOnly allowed (as.allM p) := by
  induction as with
  | nil => exact abortsOnly_ok true
  | cons a rest ih =>
    rw [allM_cons_eq_bind]
    refine (each a List.mem_cons_self).bind fun holds _ => ?_
    split_ifs
    · exact ih fun a' mem => each a' (List.mem_cons_of_mem a mem)
    · exact abortsOnly_ok false

theorem abortsOnly_withoutFault {fault : Option Error}
    (fine : ∀ cause, fault = some (.abort cause) → allowed cause) (a : α) :
    AbortsOnly allowed (withoutFault fault a) := by
  intro cause aborted
  cases fault with
  | none => cases aborted
  | some error => exact fine cause (congrArg some (Except.error.inj aborted))

/-! ## Look-ups -/

namespace Operator

theorem abortsOnly_input (op : Operator) (index : Nat) : AbortsOnly allowed (op.input index) := by
  unfold input
  split <;> exact fun _ aborted => nomatch aborted

theorem abortsOnly_output (op : Operator) (index : Nat) : AbortsOnly allowed (op.output index) := by
  unfold output
  split <;> exact fun _ aborted => nomatch aborted

theorem abortsOnly_value (op : Operator) : AbortsOnly allowed op.value := by
  unfold value
  split <;> exact fun _ aborted => nomatch aborted

end Operator

namespace Graph

theorem abortsOnly_operator (g : Graph) (id : OperatorId) : AbortsOnly allowed (g.operator id) := by
  unfold operator
  split <;> exact fun _ aborted => nomatch aborted

theorem abortsOnly_operand (g : Graph) (id : OperandId) : AbortsOnly allowed (g.operand id) := by
  unfold Graph.operand
  split <;> exact fun _ aborted => nomatch aborted

theorem abortsOnly_producer (g : Graph) (id : OperandId) : AbortsOnly allowed (g.producer id) := by
  refine (g.abortsOnly_operand id).bind fun operand _ => ?_
  split <;> exact fun _ aborted => nomatch aborted

theorem abortsOnly_source (g : Graph) (id : OperandId) : AbortsOnly allowed (g.source id) :=
  (g.abortsOnly_producer id).bind fun producer _ => g.abortsOnly_operator producer

/-! ## Walks -/

section Walks

variable (walks : allowed .endlessWalk) (g : Graph) (foldable : List String)
include walks

theorem abortsOnly_endlessWalk :
    AbortsOnly allowed (.error (.abort .endlessWalk) : Except Error α) := by
  intro cause aborted
  cases aborted
  exact walks

theorem abortsOnly_tensorValuedWithin (depth : Nat) (a : OperandId) :
    AbortsOnly allowed (g.tensorValuedWithin depth a) := by
  induction depth generalizing a with
  | zero => exact abortsOnly_endlessWalk walks
  | succ depth ih =>
    rw [tensorValuedWithin]
    refine (g.abortsOnly_source a).bind fun op _ => ?_
    split
    case h_1 => exact op.abortsOnly_value.map _
    case h_6 => exact .anyM fun index _ => (op.abortsOnly_input index).bind fun b _ => ih b
    all_goals exact abortsOnly_ok true

theorem abortsOnly_fromConstantsWithin (depth : Nat) (a : OperandId) :
    AbortsOnly allowed (g.fromConstantsWithin foldable depth a) := by
  induction depth generalizing a with
  | zero => exact abortsOnly_endlessWalk walks
  | succ depth ih =>
    rw [fromConstantsWithin]
    refine (g.abortsOnly_operand a).bind fun operand _ => ?_
    split_ifs
    · exact abortsOnly_ok true
    · refine (g.abortsOnly_source a).bind fun op _ => ?_
      split_ifs
      · exact abortsOnly_ok false
      · exact .allM fun b _ => ih b

theorem abortsOnly_isHeldBack (a : OperandId) (op : Operator) :
    AbortsOnly allowed (g.isHeldBack foldable a op) := by
  refine (abortsOnly_tensorValuedWithin walks g _ a).bind fun tensor _ => ?_
  split_ifs
  · have shared : AbortsOnly allowed (g.isShared op) := by
      unfold isShared
      split_ifs
      · exact abortsOnly_ok true
      · exact (op.abortsOnly_output 0).bind fun output _ =>
          ((g.abortsOnly_operand output).map _).map _
    refine shared.bind fun shared _ => ?_
    split_ifs
    · exact abortsOnly_ok true
    · exact abortsOnly_fromConstantsWithin walks g foldable _ a
  · exact abortsOnly_ok false

theorem abortsOnly_expandWithin (depth : Nat) (nested : Bool) (a : OperandId) :
    AbortsOnly allowed (g.expandWithin foldable depth nested a) := by
  induction depth generalizing nested a with
  | zero => exact abortsOnly_endlessWalk walks
  | succ depth ih =>
    rw [expandWithin]
    refine (g.abortsOnly_source a).bind fun op _ => AbortsOnly.bind ?_ fun held _ => ?_
    · split_ifs
      · exact abortsOnly_isHeldBack walks g foldable a op
      · exact abortsOnly_ok false
    split_ifs
    · exact abortsOnly_ok _
    · split
      case h_5 => exact op.abortsOnly_value.map _
      case h_6 =>
        refine AbortsOnly.map (.mapM fun index _ => ?_) _
        exact (op.abortsOnly_input index).bind fun b _ => ih true b
      all_goals exact abortsOnly_ok _

/-- Writing an operand as a formula aborts only where the walk does not end. -/
theorem abortsOnly_fusedFormula (a : OperandId) :
    AbortsOnly allowed (g.fusedFormula foldable a) :=
  (abortsOnly_expandWithin walks g foldable _ false a).map _

end Walks

/-! ## Edits and validation -/

theorem abortsOnly_modifyOperator (g : Graph) (id : OperatorId) (f : Operator → Operator) :
    AbortsOnly allowed (g.modifyOperator id f) := by
  unfold modifyOperator
  split_ifs
  · exact abortsOnly_ok _
  · exact fun _ aborted => nomatch aborted

/-- An unknown handle is an error and no abort. -/
theorem findSome?_missingOperand?_ne_abort (g : Graph) (ids : List OperandId) (cause : Abort) :
    ids.findSome? g.missingOperand? ≠ some (.abort cause) := by
  intro fault
  obtain ⟨a, -, missing⟩ := List.exists_of_findSome?_eq_some fault
  unfold missingOperand? at missing
  split_ifs at missing
  cases missing

theorem abortsOnly_pushOperator (g : Graph) (op : Operator) :
    AbortsOnly allowed (g.pushOperator op) := by
  refine abortsOnly_withoutFault (fun cause fault => ?_) _
  rcases Option.or_eq_some_iff.1 fault with input | ⟨-, output⟩
  · exact absurd input (g.findSome?_missingOperand?_ne_abort _ cause)
  · obtain ⟨a, -, produced⟩ := List.exists_of_findSome?_eq_some output
    unfold produceFault? at produced
    split at produced
    · cases produced
    · obtain ⟨p, -, wrong⟩ := Option.map_eq_some_iff.1 produced
      cases wrong

/-- Where links agree, rewiring finds every operand from which it strikes a record. -/
theorem Agrees.abortsOnly_rewire {g : Graph} (agrees : g.Agrees) (id : OperatorId)
    (inputs : List OperandId) : AbortsOnly allowed (g.rewire id inputs) := by
  refine AbortsOnly.bind (abortsOnly_withoutFault (fun cause fault => ?_) ()) fun _ _ => ?_
  · exact absurd fault (g.findSome?_missingOperand?_ne_abort _ cause)
  refine (g.abortsOnly_operator id).bind fun op found => ?_
  have known : op.inputs.findSome? g.detachFault? = none := by
    refine List.findSome?_eq_none_iff.2 fun a mem => (g.detachFault?_eq_none_iff a).2 ?_
    exact agrees.input_known ((g.operator_eq_ok_iff id op).1 found) a mem
  rw [known]
  exact abortsOnly_modifyOperator _ id _

/-- Where links agree, the order of evaluation finds every producer. -/
theorem Linked.abortsOnly_evaluationOrder {g : Graph} (linked : g.Linked) :
    AbortsOnly allowed g.evaluationOrder := by
  refine AbortsOnly.bind (.mapM ?_) fun pairs _ => ?_
  · rintro ⟨a, consumer⟩ -
    refine AbortsOnly.map ((g.abortsOnly_producer a).bind fun p producer => ?_) _
    obtain ⟨op, found, -⟩ := linked.producer_iff.1 producer
    rw [if_pos (List.getElem?_eq_some_iff.1 found).1]
    exact abortsOnly_ok p
  · split
    · exact abortsOnly_ok _
    · exact fun _ aborted => nomatch aborted

theorem Linked.abortsOnly_validate {g : Graph} (linked : g.Linked) :
    AbortsOnly allowed g.validate := by
  refine AbortsOnly.bind (abortsOnly_withoutFault (fun cause fault => ?_) ()) fun _ _ =>
    linked.abortsOnly_evaluationOrder.map _
  rw [fault?, g.linkFault?_eq_none_iff.2 linked.toAgrees, Option.none_or] at fault
  rcases Option.or_eq_some_iff.1 fault with operand | ⟨-, operator⟩
  · obtain ⟨operand, -, wrong⟩ := List.exists_of_findSome?_eq_some operand
    unfold Operand.fault? at wrong
    split_ifs at wrong
    cases wrong
  · obtain ⟨op, -, wrong⟩ := List.exists_of_findSome?_eq_some operator
    unfold Operator.fault? at wrong
    split_ifs at wrong <;> cases wrong

end Graph

end FormulaFusion
