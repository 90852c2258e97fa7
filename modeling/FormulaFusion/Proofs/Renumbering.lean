import Mathlib.Logic.Equiv.Defs
import FormulaFusion.Proofs.SyntaxTree

/-!
# Names and numbers of operands do not matter

Two graphs are `Graph.Renumbered` if a permutation of the operand handles takes one to the other and
all names and attributes are left out of account; of the names of operands it only counts whether they
are among the foldable ones.  `Alike` compares computations on such graphs: both fail with errors of one
class, or both succeed with related results.  Both classifications give the same answers
(`Renumbered.tensorValued`, `Renumbered.fromConstants`), expansions differ in the labels of their slots
only (`Renumbered.expandWithin`), and fused formulas have the same text and corresponding inputs
(`Renumbered.fusedFormula`).
-/

namespace FormulaFusion

/-! ## Pairs of computations -/

/-- Both computations fail with errors of one class, or both succeed with related results. -/
inductive Alike {α β : Type} (R : α → β → Prop) : Except Error α → Except Error β → Prop
  | ok {a : α} {b : β} : R a b → Alike R (.ok a) (.ok b)
  | error {e e' : Error} : e'.category = e.category → Alike R (.error e) (.error e')

namespace Alike

variable {α α' β β' : Type} {R : α → α' → Prop} {T : β → β' → Prop}

theorem bind {x : Except Error α} {x' : Except Error α'} {f : α → Except Error β}
    {f' : α' → Except Error β'} (first : Alike R x x')
    (next : ∀ a a', R a a' → Alike T (f a) (f' a')) : Alike T (x.bind f) (x'.bind f') := by
  cases first with
  | ok related => exact next _ _ related
  | error same => exact .error same

theorem map {x : Except Error α} {x' : Except Error α'} {f : α → β} {f' : α' → β'}
    (first : Alike R x x') (next : ∀ a a', R a a' → T (f a) (f' a')) :
    Alike T (x.map f) (x'.map f') := by
  cases first with
  | ok related => exact .ok (next _ _ related)
  | error same => exact .error same

theorem mapM {f : α → Except Error β} {f' : α → Except Error β'} (as : List α)
    (each : ∀ a, Alike T (f a) (f' a)) : Alike (List.Forall₂ T) (as.mapM f) (as.mapM f') := by
  induction as with
  | nil => exact .ok .nil
  | cons a rest ih =>
    rw [mapM_cons_eq_bind, mapM_cons_eq_bind]
    exact (each a).bind fun b b' first => ih.map fun bs bs' others => .cons first others

theorem anyM {p p' : α → Except Error Bool} (as : List α) (each : ∀ a, Alike Eq (p a) (p' a)) :
    Alike Eq (as.anyM p) (as.anyM p') := by
  induction as with
  | nil => exact .ok rfl
  | cons a rest ih =>
    rw [anyM_cons_eq_bind, anyM_cons_eq_bind]
    refine (each a).bind ?_
    rintro found _ rfl
    split_ifs
    · exact .ok rfl
    · exact ih

theorem allM {p : α → Except Error Bool} {p' : α' → Except Error Bool} {π : α → α'} (as : List α)
    (each : ∀ a, Alike Eq (p a) (p' (π a))) : Alike Eq (as.allM p) ((as.map π).allM p') := by
  induction as with
  | nil => exact .ok rfl
  | cons a rest ih =>
    rw [List.map_cons, allM_cons_eq_bind, allM_cons_eq_bind]
    refine (each a).bind ?_
    rintro holds _ rfl
    split_ifs
    · exact ih
    · exact .ok rfl

end Alike

/-! ## Renumbered graphs -/

/-- The operators agree in kind and parameters, and `π` takes the inputs and outputs of one to those of
the other. -/
structure Operator.Renumbered (π : Equiv.Perm OperandId) (op op' : Operator) : Prop where
  kind : op'.kind = op.kind
  inputs : op'.inputs = op.inputs.map π
  outputs : op'.outputs = op.outputs.map π
  params : op'.params = op.params

/-- The operands have the same producer and the same consumers, and the name of one is in `S` exactly if
that of the other is in `S'`. -/
structure Operand.Renumbered (S S' : List String) (operand operand' : Operand) : Prop where
  producer : operand'.producer = operand.producer
  consumers : operand'.consumers = operand.consumers
  name : operand'.name ∈ S' ↔ operand.name ∈ S

/-- The permutation `π` of handles takes the graph `g` to `h`, up to the names of operators and
operands and up to attributes.  Corresponding operands have names in `S` and in `S'` alike. -/
structure Graph.Renumbered (π : Equiv.Perm OperandId) (S S' : List String) (g h : Graph) : Prop where
  operators : ∀ p : Nat, Option.Rel (Operator.Renumbered π) g.operators[p]? h.operators[p]?
  operands : ∀ a : OperandId,
    Option.Rel (Operand.Renumbered S S') g.operands[a.index]? h.operands[(π a).index]?
  length : h.operands.length = g.operands.length

variable {π : Equiv.Perm OperandId} {S S' : List String} {g h : Graph}

/-! ## Look-ups -/

namespace Operator.Renumbered

variable {op op' : Operator}

theorem input (renumbered : op.Renumbered π op') (index : Nat) :
    Alike (fun a a' => a' = π a) (op.input index) (op'.input index) := by
  unfold Operator.input
  rw [renumbered.inputs, List.getElem?_map]
  cases op.inputs[index]? with
  | none => exact .error rfl
  | some a => exact .ok rfl

theorem output (renumbered : op.Renumbered π op') (index : Nat) :
    Alike (fun a a' => a' = π a) (op.output index) (op'.output index) := by
  unfold Operator.output
  rw [renumbered.outputs, List.getElem?_map]
  cases op.outputs[index]? with
  | none => exact .error rfl
  | some a => exact .ok rfl

theorem value (renumbered : op.Renumbered π op') : Alike Eq op.value op'.value := by
  unfold Operator.value
  rw [renumbered.params]
  cases op.params.get? "value" with
  | none => exact .error rfl
  | some parameter => exact .ok rfl

theorem dataPositions (renumbered : op.Renumbered π op') :
    op'.dataPositions = op.dataPositions := by
  rw [Operator.dataPositions, Operator.dataPositions, renumbered.kind, renumbered.inputs,
    List.length_map]

end Operator.Renumbered

namespace Graph.Renumbered

theorem operator (renumbered : g.Renumbered π S S' h) (p : OperatorId) :
    Alike (Operator.Renumbered π) (g.operator p) (h.operator p) := by
  have related := renumbered.operators p.index
  unfold Graph.operator
  generalize g.operators[p.index]? = found, h.operators[p.index]? = found' at related ⊢
  cases related with
  | some related => exact .ok related
  | none => exact .error rfl

theorem operand (renumbered : g.Renumbered π S S' h) (a : OperandId) :
    Alike (Operand.Renumbered S S') (g.operand a) (h.operand (π a)) := by
  have related := renumbered.operands a
  unfold Graph.operand
  generalize g.operands[a.index]? = found, h.operands[(π a).index]? = found' at related ⊢
  cases related with
  | some related => exact .ok related
  | none => exact .error rfl

theorem producer (renumbered : g.Renumbered π S S' h) (a : OperandId) :
    Alike Eq (g.producer a) (h.producer (π a)) := by
  refine (renumbered.operand a).bind fun operand operand' related => ?_
  rw [related.producer]
  cases operand.producer with
  | some p => exact .ok rfl
  | none => exact .error rfl

theorem consumers (renumbered : g.Renumbered π S S' h) (a : OperandId) :
    Alike Eq (g.consumers a) (h.consumers (π a)) :=
  (renumbered.operand a).map fun _ _ related => related.consumers.symm

theorem source (renumbered : g.Renumbered π S S' h) (a : OperandId) :
    Alike (Operator.Renumbered π) (g.source a) (h.source (π a)) := by
  refine (renumbered.producer a).bind ?_
  rintro p _ rfl
  exact renumbered.operator p

/-! ## Classification -/

theorem tensorValuedWithin (renumbered : g.Renumbered π S S' h) (depth : Nat) (a : OperandId) :
    Alike Eq (g.tensorValuedWithin depth a) (h.tensorValuedWithin depth (π a)) := by
  induction depth generalizing a with
  | zero => exact .error rfl
  | succ depth ih =>
    rw [Graph.tensorValuedWithin, Graph.tensorValuedWithin]
    refine (renumbered.source a).bind fun op op' related => ?_
    rw [related.kind]
    split
    case h_1 =>
      refine related.value.map ?_
      rintro parameter _ rfl
      rfl
    case h_6 =>
      refine .anyM _ fun index => (related.input index).bind ?_
      rintro b _ rfl
      exact ih b
    all_goals exact .ok rfl

theorem tensorValued (renumbered : g.Renumbered π S S' h) (a : OperandId) :
    Alike Eq (g.tensorValued a) (h.tensorValued (π a)) := by
  unfold Graph.tensorValued
  rw [renumbered.length]
  exact renumbered.tensorValuedWithin _ a

theorem fromConstantsWithin (renumbered : g.Renumbered π S S' h) (depth : Nat) (a : OperandId) :
    Alike Eq (g.fromConstantsWithin S depth a) (h.fromConstantsWithin S' depth (π a)) := by
  induction depth generalizing a with
  | zero => exact .error rfl
  | succ depth ih =>
    rw [Graph.fromConstantsWithin, Graph.fromConstantsWithin]
    refine (renumbered.operand a).bind fun operand operand' related => ?_
    by_cases listed : operand.name ∈ S
    · rw [if_pos listed, if_pos (related.name.2 listed)]
      exact .ok rfl
    rw [if_neg listed, if_neg (related.name.not.2 listed)]
    refine (renumbered.source a).bind fun op op' related => ?_
    rw [related.kind, related.inputs]
    split_ifs
    · exact .ok rfl
    · exact .allM op.inputs ih

theorem fromConstants (renumbered : g.Renumbered π S S' h) (a : OperandId) :
    Alike Eq (g.fromConstants S a) (h.fromConstants S' (π a)) := by
  unfold Graph.fromConstants
  rw [renumbered.length]
  exact renumbered.fromConstantsWithin _ a

theorem isShared (renumbered : g.Renumbered π S S' h) {op op' : Operator}
    (related : op.Renumbered π op') : Alike Eq (g.isShared op) (h.isShared op') := by
  unfold Graph.isShared
  rw [related.outputs, List.length_map]
  split_ifs
  · exact .ok rfl
  · refine (related.output 0).bind ?_
    rintro output _ rfl
    refine (renumbered.consumers output).map ?_
    rintro consumers _ rfl
    rfl

theorem isHeldBack (renumbered : g.Renumbered π S S' h) (a : OperandId) {op op' : Operator}
    (related : op.Renumbered π op') :
    Alike Eq (g.isHeldBack S a op) (h.isHeldBack S' (π a) op') := by
  refine (renumbered.tensorValued a).bind ?_
  rintro tensor _ rfl
  split_ifs
  · refine (renumbered.isShared related).bind ?_
    rintro shared _ rfl
    split_ifs
    · exact .ok rfl
    · exact renumbered.fromConstants a
  · exact .ok rfl

end Graph.Renumbered

/-! ## Expansion -/

namespace Formula

variable {σ τ : Type}

theorem isUnit_relabel (f : σ → τ) (formula : Formula σ) :
    (formula.relabel f).isUnit = formula.isUnit := by
  cases formula <;> rw [relabel] <;> rfl

theorem relabel_ofKind (f : σ → τ) (kind : Kind) (args : List (Formula σ)) :
    (ofKind kind args).relabel f = ofKind kind (args.map (relabel f)) := by
  apply change_ofKind _ _ (isUnit_relabel f)
  · intro name args
    rw [relabel, relabelAll_eq_map]
  · intro items
    rw [relabel, relabelAll_eq_map]

end Formula

namespace Graph.Renumbered

theorem expandWithin (renumbered : g.Renumbered π S S' h) (depth : Nat) (nested : Bool)
    (a : OperandId) : Alike (fun formula formula' => formula.relabel π = formula')
      (g.expandWithin S depth nested a) (h.expandWithin S' depth nested (π a)) := by
  induction depth generalizing nested a with
  | zero => exact .error rfl
  | succ depth ih =>
    rw [Graph.expandWithin, Graph.expandWithin]
    refine (renumbered.source a).bind fun op op' related => Alike.bind (R := Eq) ?_ ?_
    · split_ifs
      · exact renumbered.isHeldBack a related
      · exact .ok rfl
    rintro held _ rfl
    have slot : (Formula.slot a).relabel π = .slot (π a) := by rw [Formula.relabel]
    rw [related.kind, related.dataPositions]
    split_ifs
    · exact .ok slot
    split
    case h_5 =>
      refine related.value.map ?_
      rintro parameter _ rfl
      cases parameter.literal? with
      | some value => exact Formula.relabel.eq_1 ..
      | none => exact slot
    case h_6 =>
      have each : ∀ index, Alike (fun formula formula' => formula.relabel π = formula')
          ((op.input index).bind (g.expandWithin S depth true))
          ((op'.input index).bind (h.expandWithin S' depth true)) := by
        refine fun index => (related.input index).bind ?_
        rintro b _ rfl
        exact ih true b
      refine (Alike.mapM op.dataPositions each).map fun args args' same => ?_
      rw [← List.forall₂_map_left_iff, List.forall₂_eq_eq_eq] at same
      rw [Formula.relabel_ofKind, same]
    all_goals exact .ok slot

end Graph.Renumbered

/-! ## Numbered slots -/

/-- The frontier of renumbered operands is the renumbered frontier. -/
theorem Frontier.operands_meetAll_map (π : Equiv.Perm OperandId) (f f' : Frontier)
    (same : f'.operands = f.operands.map π) (ids : List OperandId) :
    (f'.meetAll (ids.map π)).operands = (f.meetAll ids).operands.map π := by
  induction ids generalizing f f' with
  | nil => exact same
  | cons id rest ih =>
    rw [List.map_cons, operands_meetAll_cons, operands_meetAll_cons]
    apply ih
    have met : π id ∈ f'.operands ↔ id ∈ f.operands := by
      rw [same, List.mem_map_of_injective π.injective]
    rw [operands_meet, operands_meet]
    by_cases known : id ∈ f.operands
    · rw [if_pos known, if_pos (met.2 known), same]
    · rw [if_neg known, if_neg (met.not.2 known), same, List.map_append, List.map_singleton]

namespace Formula

theorem eraseDups_slots_relabel (π : Equiv.Perm OperandId) (formula : Formula OperandId) :
    (formula.relabel π).slots.eraseDups = formula.slots.eraseDups.map π := by
  rw [slots_relabel, ← Frontier.operands_ofList, ← Frontier.operands_ofList]
  exact Frontier.operands_meetAll_map π .empty .empty rfl formula.slots

/-- Corresponding operands have the same number. -/
theorem slotNumber_relabel (π : Equiv.Perm OperandId) (formula : Formula OperandId)
    (id : OperandId) : (formula.relabel π).slotNumber (π id) = formula.slotNumber id := by
  unfold slotNumber
  rw [eraseDups_slots_relabel, List.idxOf, List.idxOf, List.findIdx_map]
  congr 1
  funext other
  simp

end Formula

/-- Relabelling a formula does not change its text, and its inputs follow the labels. -/
theorem FusedFormula.ofFormula_relabel (π : Equiv.Perm OperandId) (formula : Formula OperandId) :
    ofFormula (formula.relabel π) =
      ⟨(ofFormula formula).formula, (ofFormula formula).inputs.map π⟩ := by
  rw [ofFormula_eq, ofFormula_eq, Formula.eraseDups_slots_relabel, Formula.relabel_relabel]
  congr 1
  exact Formula.relabel_congr fun id _ => formula.slotNumber_relabel π id

theorem Graph.Renumbered.fusedFormula (renumbered : g.Renumbered π S S' h) (a : OperandId) :
    Alike (fun fused fused' => fused'.text = fused.text ∧ fused'.inputs = fused.inputs.map π)
      (g.fusedFormula S a) (h.fusedFormula S' (π a)) := by
  unfold Graph.fusedFormula Graph.expand
  rw [renumbered.length]
  refine (renumbered.expandWithin _ false a).map ?_
  rintro formula _ rfl
  rw [FusedFormula.ofFormula_relabel]
  exact ⟨rfl, rfl⟩

end FormulaFusion
