import FormulaFusion.Proofs.Fusion.Sweep
import FormulaFusion.Proofs.Renumbering

/-!
# Fusion of renumbered graphs

Edits take renumbered graphs to renumbered graphs (`Graph.Renumbered.rewire`), and so does a step of
fusion (`Graph.Renumbered.fuseAt`).  Renumbered graphs have the same candidates, so their runs go in
lock step (`Graph.Renumbered.sweep`): names and numbers of operands never influence fusion
(`Graph.Renumbered.fuses_alike`).
-/

namespace FormulaFusion

/-! ## Related options -/

section

variable {α α' β β' : Type} {R : α → α' → Prop} {T : β → β' → Prop}

theorem rel_map {x : Option α} {x' : Option α'} {f : α → β} {f' : α' → β'}
    (related : Option.Rel R x x') (each : ∀ a a', R a a' → T (f a) (f' a')) :
    Option.Rel T (x.map f) (x'.map f') := by
  cases related with
  | some related => exact .some (each _ _ related)
  | none => exact .none

theorem eq_none_iff_of_rel {x : Option α} {x' : Option α'} (related : Option.Rel R x x') :
    x' = none ↔ x = none := by
  cases related <;> simp

theorem rel_unless {c c' : Prop} [Decidable c] [Decidable c'] (same : c' ↔ c) {a : α} {a' : α'}
    (related : R a a') :
    Option.Rel R (if c then none else some a) (if c' then none else some a') := by
  by_cases holds : c
  · rw [if_pos holds, if_pos (same.2 holds)]
    exact .none
  · rw [if_neg holds, if_neg (same.not.2 holds)]
    exact .some related

theorem rel_findSome? {f : α → Option β} {f' : α' → Option β'} {π : α → α'} (as : List α)
    (each : ∀ a, Option.Rel T (f a) (f' (π a))) :
    Option.Rel T (as.findSome? f) ((as.map π).findSome? f') := by
  induction as with
  | nil => exact .none
  | cons a rest ih =>
    have here := each a
    rw [List.map_cons, List.findSome?_cons, List.findSome?_cons]
    generalize f a = found, f' (π a) = found' at here ⊢
    cases here with
    | some related => exact .some related
    | none => exact ih

theorem alike_withoutFault {fault fault' : Option Error} {a : α} {a' : α'}
    (faults : Option.Rel (fun e e' => e'.category = e.category) fault fault') (related : R a a') :
    Alike R (withoutFault fault a) (withoutFault fault' a') := by
  cases faults with
  | some same => exact .error same
  | none => exact .ok related

end

variable {π : Equiv.Perm OperandId} {S S' : List String} {g h : Graph}

namespace Graph.Renumbered

theorem length_operators (renumbered : g.Renumbered π S S' h) :
    h.operators.length = g.operators.length := by
  refine eq_of_forall_ge_iff fun p => ?_
  rw [← List.getElem?_eq_none_iff, ← List.getElem?_eq_none_iff]
  exact eq_none_iff_of_rel (renumbered.operators p)

/-- Corresponding handles name operands alike. -/
theorem index_lt_iff (renumbered : g.Renumbered π S S' h) (a : OperandId) :
    (π a).index < h.operands.length ↔ a.index < g.operands.length := by
  rw [← not_iff_not, not_lt, not_lt, ← List.getElem?_eq_none_iff, ← List.getElem?_eq_none_iff]
  exact eq_none_iff_of_rel (renumbered.operands a)

theorem missingOperand? (renumbered : g.Renumbered π S S' h) (a : OperandId) :
    Option.Rel (fun e e' => e'.category = e.category) (g.missingOperand? a)
      (h.missingOperand? (π a)) :=
  rel_unless (renumbered.index_lt_iff a) rfl

theorem detachFault? (renumbered : g.Renumbered π S S' h) (a : OperandId) :
    Option.Rel (fun e e' => e'.category = e.category) (g.detachFault? a)
      (h.detachFault? (π a)) :=
  rel_unless (renumbered.index_lt_iff a) rfl

/-! ## Edits -/

theorem modifyOperand (renumbered : g.Renumbered π S S' h) (a : OperandId)
    {f : Operand → Operand} (each : ∀ operand operand', operand.Renumbered S S' operand' →
      (f operand).Renumbered S S' (f operand')) :
    (g.modifyOperand a f).Renumbered π S S' (h.modifyOperand (π a) f) where
  operators := renumbered.operators
  operands b := by
    rw [getElem?_operands_modifyOperand, getElem?_operands_modifyOperand]
    by_cases here : a = b
    · rw [here, if_pos rfl, if_pos rfl]
      exact rel_map (renumbered.operands b) each
    · rw [if_neg fun same => here (OperandId.eq_of_index same),
        if_neg fun same => here (π.injective (OperandId.eq_of_index same))]
      exact renumbered.operands b
  length := by simpa using renumbered.length

theorem foldl_modifyOperand (renumbered : g.Renumbered π S S' h) (ids : List OperandId)
    {f : Operand → Operand} (each : ∀ operand operand', operand.Renumbered S S' operand' →
      (f operand).Renumbered S S' (f operand')) :
    (ids.foldl (fun g a => g.modifyOperand a f) g).Renumbered π S S'
      ((ids.map π).foldl (fun h a => h.modifyOperand a f) h) := by
  induction ids generalizing g h with
  | nil => exact renumbered
  | cons a rest ih => exact ih (renumbered.modifyOperand a each)

theorem attach (renumbered : g.Renumbered π S S' h) (p : OperatorId) (inputs : List OperandId) :
    (g.attach p inputs).Renumbered π S S' (h.attach p (inputs.map π)) :=
  renumbered.foldl_modifyOperand inputs fun _ _ related =>
    ⟨related.producer, congrArg (· ++ [p]) related.consumers, related.name⟩

theorem detach (renumbered : g.Renumbered π S S' h) (p : OperatorId) (inputs : List OperandId) :
    (g.detach p inputs).Renumbered π S S' (h.detach p (inputs.map π)) :=
  renumbered.foldl_modifyOperand inputs fun _ _ related =>
    ⟨related.producer, congrArg (List.erase · p) related.consumers, related.name⟩

theorem modifyOperator (renumbered : g.Renumbered π S S' h) (p : OperatorId)
    {f f' : Operator → Operator}
    (each : ∀ op op', op.Renumbered π op' → (f op).Renumbered π (f' op')) :
    Alike (Graph.Renumbered π S S') (g.modifyOperator p f) (h.modifyOperator p f') := by
  unfold Graph.modifyOperator
  rw [renumbered.length_operators]
  split_ifs
  · refine .ok ⟨fun q => ?_, renumbered.operands, renumbered.length⟩
    rw [List.getElem?_modify, List.getElem?_modify]
    refine rel_map (renumbered.operators q) fun op op' related => ?_
    split_ifs
    · exact each op op' related
    · exact related
  · exact .error rfl

theorem rewire (renumbered : g.Renumbered π S S' h) (p : OperatorId) (inputs : List OperandId) :
    Alike (Graph.Renumbered π S S') (g.rewire p inputs) (h.rewire p (inputs.map π)) := by
  refine Alike.bind (R := Eq) (alike_withoutFault ?_ rfl) fun _ _ _ => ?_
  · exact rel_findSome? inputs renumbered.missingOperand?
  refine (renumbered.operator p).bind fun op op' related => ?_
  rw [related.inputs]
  refine Alike.bind (R := Eq) (alike_withoutFault ?_ rfl) fun _ _ _ => ?_
  · exact rel_findSome? op.inputs renumbered.detachFault?
  · exact ((renumbered.detach p op.inputs).attach p inputs).modifyOperator p fun _ _ related =>
      ⟨related.kind, rfl, related.outputs, related.params⟩

end Graph.Renumbered

/-! ## One step -/

/-- The operators are expressions that agree in name, parameters and attributes. -/
structure Operator.SameExpression (op op' : Operator) : Prop where
  kind : op.kind = .expression
  kind' : op'.kind = .expression
  name : op'.name = op.name
  params : op'.params = op.params
  attrs : op'.attrs = op.attrs

/-- At every place, the operators of `k` and `k'` are those of `g` and `h`, or they are the same
expression. -/
def Graph.Rewritten (g h k k' : Graph) : Prop :=
  ∀ p : OperatorId,
    k.operators[p.index]? = g.operators[p.index]? ∧
        k'.operators[p.index]? = h.operators[p.index]? ∨
      ∃ op op', k.operators[p.index]? = some op ∧ k'.operators[p.index]? = some op' ∧
        op.SameExpression op'

theorem Graph.Rewritten.trans {g h k k' l l' : Graph} (first : Rewritten g h k k')
    (next : Rewritten k k' l l') : Rewritten g h l l' := by
  intro p
  rcases next p with ⟨kept, kept'⟩ | rewritten
  · rw [kept, kept']
    exact first p
  · exact .inr rewritten

variable {f f' : Fusion}

theorem Operator.Renumbered.isCandidate {op op' : Operator} (renumbered : op.Renumbered π op') :
    op'.isCandidate = op.isCandidate := by
  rw [Operator.isCandidate, Operator.isCandidate, renumbered.kind, renumbered.params]

namespace Graph.Renumbered

theorem fuseAt (renumbered : g.Renumbered π f.foldable f'.foldable h) (p : OperatorId)
    (number : Nat) : Alike (Graph.Renumbered π f.foldable f'.foldable) (f.fuseAt g p number)
      (f'.fuseAt h p number) := by
  refine (renumbered.operator p).bind fun op op' related => (related.output 0).bind ?_
  rintro output _ rfl
  refine (renumbered.fusedFormula output).bind ?_
  rintro fused fused' ⟨text, inputs⟩
  rw [text, inputs]
  refine (renumbered.rewire p fused.inputs).bind fun k k' rewired => ?_
  exact rewired.modifyOperator p fun _ _ related => ⟨rfl, related.inputs, related.outputs, rfl⟩

/-- Steps of corresponding operators write the same text. -/
theorem text_eq_of_step (renumbered : g.Renumbered π f.foldable f'.foldable h) {k k' : Graph}
    {p : OperatorId} {number : Nat} {op op' : Operator} {fused fused' : FusedFormula}
    (step : f.Step g p number op fused k) (step' : f'.Step h p number op' fused' k') :
    fused'.text = fused.text := by
  have related := renumbered.operators p.index
  rw [step.found, step'.found, Option.rel_some_some] at related
  obtain ⟨output, -, first, built⟩ := step.formula
  obtain ⟨output', -, first', built'⟩ := step'.formula
  rw [related.outputs, List.getElem?_map, first, Option.map_some, Option.some_inj] at first'
  have formulas := renumbered.fusedFormula output
  rw [first', built, built'] at formulas
  cases formulas with
  | ok same => exact same.1

theorem rewritten_of_fuseAt (renumbered : g.Renumbered π f.foldable f'.foldable h)
    (stem : f'.stem = f.stem) {k k' : Graph} {p : OperatorId} {number : Nat}
    (run : f.fuseAt g p number = .ok k) (run' : f'.fuseAt h p number = .ok k') :
    Rewritten g h k k' := by
  obtain ⟨op, fused, step⟩ := Fusion.exists_step run
  obtain ⟨op', fused', step'⟩ := Fusion.exists_step run'
  have text := renumbered.text_eq_of_step step step'
  intro q
  by_cases here : q.index = p.index
  · rw [here]
    refine .inr ⟨_, _, step.getElem?_operators_self, step'.getElem?_operators_self, ?_⟩
    rw [text]
    exact ⟨rfl, rfl, congrArg (· ++ toString number) stem, rfl, rfl⟩
  · exact .inl ⟨step.getElem?_operators_of_ne here, step'.getElem?_operators_of_ne here⟩

/-! ## Runs -/

theorem candidates (renumbered : g.Renumbered π S S' h) : h.candidates = g.candidates := by
  unfold Graph.candidates Graph.operatorIds
  rw [renumbered.length_operators]
  refine List.filter_congr fun p _ => ?_
  have related := renumbered.operators p.index
  generalize g.operators[p.index]? = found, h.operators[p.index]? = found' at related ⊢
  cases related with
  | some related => exact related.isCandidate
  | none => rfl

/-- Sweeps over the same operators go in lock step. -/
theorem sweep (renumbered : g.Renumbered π f.foldable f'.foldable h) (stem : f'.stem = f.stem)
    (ids : List OperatorId) (done : Nat) :
    Alike Eq (f.sweep ids done g).result (f'.sweep ids done h).result ∧
      (f.sweep ids done g).graph.Renumbered π f.foldable f'.foldable (f'.sweep ids done h).graph ∧
      Rewritten g h (f.sweep ids done g).graph (f'.sweep ids done h).graph := by
  induction ids generalizing done g h with
  | nil => exact ⟨.ok rfl, renumbered, fun _ => .inl ⟨rfl, rfl⟩⟩
  | cons p rest ih =>
    have steps := renumbered.fuseAt p done
    have rewritten : ∀ k k', f.fuseAt g p done = .ok k → f'.fuseAt h p done = .ok k' →
        Rewritten g h k k' := fun _ _ => renumbered.rewritten_of_fuseAt stem
    rw [Fusion.sweep, Fusion.sweep]
    generalize f.fuseAt g p done = step, f'.fuseAt h p done = step' at steps rewritten ⊢
    cases steps with
    | error same => exact ⟨.error same, renumbered, fun _ => .inl ⟨rfl, rfl⟩⟩
    | ok next =>
      obtain ⟨result, graphs, later⟩ := ih next (done + 1)
      exact ⟨result, graphs, (rewritten _ _ rfl rfl).trans later⟩

/-- Names and numbers of operands never influence fusion.  In two renumbered graphs, corresponding
operands have formulas of the same text with corresponding inputs, or both have none for errors of one
class.  With the same stem, runs of fusion give the same number of expressions, or both fail with errors
of one class; the graphs that they leave are renumbered in the same way, and what they have rewritten
has the same kind, name and parameters in both. -/
theorem fuses_alike (f f' : Fusion) (renumbered : g.Renumbered π f.foldable f'.foldable h)
    (stem : f'.stem = f.stem) :
    (∀ a, Alike (fun fused fused' => fused'.text = fused.text ∧ fused'.inputs = fused.inputs.map π)
      (g.fusedFormula f.foldable a) (h.fusedFormula f'.foldable (π a))) ∧
    Alike Eq (f.run g).result (f'.run h).result ∧
    (f.run g).graph.Renumbered π f.foldable f'.foldable (f'.run h).graph ∧
    Rewritten g h (f.run g).graph (f'.run h).graph := by
  have run : ∀ (f : Fusion) (g : Graph), f.run g = f.sweep g.candidates 0 g := fun f g =>
    f.runFrom_eq_sweep 0 ((List.length_filter_le _ _).trans (by simp [Graph.operatorIds]))
  rw [run, run, renumbered.candidates]
  exact ⟨renumbered.fusedFormula, renumbered.sweep stem g.candidates 0⟩

end Graph.Renumbered

/-! ## Operands of the same name -/

/-- The difference of two inputs. -/
def Graph.difference : Graph where
  operators :=
    [{ kind := .input, name := "in", outputs := [⟨0⟩, ⟨1⟩] },
     { kind := .constant, name := "one", outputs := [⟨2⟩]
       params := .singleton "value" (.literal (.int 1)) },
     { kind := .sub, name := "sub", inputs := [⟨0⟩, ⟨1⟩, ⟨2⟩], outputs := [⟨3⟩] }]
  operands :=
    [⟨"x", some ⟨0⟩, [⟨2⟩]⟩, ⟨"y", some ⟨0⟩, [⟨2⟩]⟩, ⟨"alpha", some ⟨1⟩, [⟨2⟩]⟩,
     ⟨"d", some ⟨2⟩, []⟩]

/-- The same difference with the handles of its inputs exchanged and all operands named alike. -/
def Graph.differenceUnnamed : Graph where
  operators :=
    [{ kind := .input, name := "", outputs := [⟨1⟩, ⟨0⟩] },
     { kind := .constant, name := "", outputs := [⟨2⟩]
       params := .singleton "value" (.literal (.int 1)) },
     { kind := .sub, name := "", inputs := [⟨1⟩, ⟨0⟩, ⟨2⟩], outputs := [⟨3⟩] }]
  operands :=
    [⟨"t", some ⟨0⟩, [⟨2⟩]⟩, ⟨"t", some ⟨0⟩, [⟨2⟩]⟩, ⟨"t", some ⟨1⟩, [⟨2⟩]⟩,
     ⟨"t", some ⟨2⟩, []⟩]

theorem Graph.renumbered_difference :
    difference.Renumbered (Equiv.swap ⟨0⟩ ⟨1⟩) [] [] differenceUnnamed where
  operators
    | 0 | 1 | 2 => .some (by constructor <;> rfl)
    | _ + 3 => .none
  operands
    | ⟨0⟩ | ⟨1⟩ | ⟨2⟩ | ⟨3⟩ => .some ⟨rfl, rfl, by simp⟩
    | ⟨n + 4⟩ => by
      rw [Equiv.swap_apply_of_ne_of_ne (by simp) (by simp)]
      exact .none
  length := rfl

theorem Graph.Renumbered.fuses_alike_difference :
    difference.Renumbered (Equiv.swap ⟨0⟩ ⟨1⟩) [] [] differenceUnnamed ∧
    (∃ fused fused', difference.fusedFormula [] ⟨3⟩ = .ok fused ∧
      differenceUnnamed.fusedFormula [] ⟨3⟩ = .ok fused' ∧ fused'.text = fused.text ∧
      fused.inputs = [⟨0⟩, ⟨1⟩] ∧ fused'.inputs = [⟨1⟩, ⟨0⟩]) ∧
    (Fusion.run {} difference).result = .ok 2 ∧
    Alike Eq (Fusion.run {} difference).result (Fusion.run {} differenceUnnamed).result := by
  obtain ⟨formulas, results, -, -⟩ := fuses_alike {} {} renumbered_difference rfl
  refine ⟨renumbered_difference, ?_, rfl, results⟩
  obtain ⟨fused, built, inputs⟩ : ∃ fused, difference.fusedFormula [] ⟨3⟩ = .ok fused ∧
      fused.inputs = [⟨0⟩, ⟨1⟩] := ⟨_, rfl, rfl⟩
  obtain ⟨fused', built'⟩ : ∃ fused', differenceUnnamed.fusedFormula [] ⟨3⟩ = .ok fused' := ⟨_, rfl⟩
  have same : Alike _ (difference.fusedFormula [] ⟨3⟩) (differenceUnnamed.fusedFormula [] ⟨3⟩) :=
    formulas ⟨3⟩
  rw [built, built'] at same
  cases same with
  | ok related =>
    refine ⟨fused, fused', built, built', related.1, inputs, ?_⟩
    rw [related.2, inputs]
    rfl

end FormulaFusion
