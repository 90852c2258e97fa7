import FormulaFusion.Expansion
import FormulaFusion.Proofs.Classification
import FormulaFusion.Proofs.Frontier

/-!
# Expansion of operands

One step of an expansion has five outcomes, listed by `Graph.Expands`: a value is held back, stands
outside of formulas, is a constant tensor, is a literal, or is computed from its inputs.  From this
view follow the facts about whole expansions: in a well-formed graph every operand has one
(`WellFormed.exists_expand`), its slots are operands that it is computed from
(`reflTransGen_feeds_of_mem_slots`), and at the top of a formula the operand itself is no slot
(`transGen_feeds_of_mem_slots`).
-/

open Relation

namespace FormulaFusion

/-- An operator with as many inputs as its kind takes has those that its formula reads. -/
theorem Operator.lt_of_mem_dataPositions {op : Operator} {index : Nat}
    (arity : op.kind.arity.accepts op.inputs.length = true) (mem : index ∈ op.dataPositions) :
    index < op.inputs.length := by
  unfold dataPositions at mem
  cases kind : op.kind <;> simp_all [Kind.arity, Arity.accepts] <;> omega

namespace Formula

variable {σ : Type}

@[simp]
theorem slotsOfAll_nil : slotsOfAll ([] : List (Formula σ)) = [] := by rw [slotsOfAll]

@[simp]
theorem slotsOfAll_cons (formula : Formula σ) (rest : List (Formula σ)) :
    slotsOfAll (formula :: rest) = formula.slots ++ slotsOfAll rest := by rw [slotsOfAll]

theorem slots_of_isUnit {formula : Formula σ} (unit : formula.isUnit = true) :
    formula.slots = [] := by
  cases formula with
  | literal value => rw [slots]
  | _ => simp [isUnit] at unit

/-- A factor that is left out has no slots. -/
theorem slots_scaled (formula factor : Formula σ) :
    (scaled formula factor).slots = formula.slots ++ factor.slots := by
  unfold scaled
  split_ifs with unit
  · rw [slots_of_isUnit unit, List.append_nil]
  · simp [slots]

/-- The formula of an operator has the slots of its arguments, in their order. -/
theorem slots_ofKind (kind : Kind) (args : List (Formula σ)) :
    (ofKind kind args).slots = slotsOfAll args := by
  unfold ofKind
  split <;> simp [slots, slots_scaled]

/-- A change of literals and labels that keeps units reaches through the formula of an operator. -/
theorem change_ofKind {τ : Type} {change : Formula σ → Formula τ}
    (calls : ∀ name args, change (call name args) = call name (args.map change))
    (lists : ∀ items, change (list items) = list (items.map change))
    (units : ∀ formula, (change formula).isUnit = formula.isUnit) (kind : Kind)
    (args : List (Formula σ)) : change (ofKind kind args) = ofKind kind (args.map change) := by
  have products : ∀ formula factor,
      change (scaled formula factor) = scaled (change formula) (change factor) := by
    intro formula factor
    unfold scaled
    rw [units]
    split_ifs
    · rfl
    · rw [calls, List.map_cons, List.map_singleton]
  rcases args with _ | ⟨a, _ | ⟨b, _ | ⟨c, _ | ⟨d, rest⟩⟩⟩⟩ <;> cases kind <;>
    simp [ofKind, calls, lists, products]

theorem mem_slotsOfAll_iff (args : List (Formula σ)) (label : σ) :
    label ∈ slotsOfAll args ↔ ∃ arg ∈ args, label ∈ arg.slots := by
  rw [slotsOfAll_eq_flatMap, List.mem_flatMap]

end Formula

namespace Graph

/-! ## One step -/

/-- The outcomes of one step of an expansion. -/
inductive Expands (g : Graph) (foldable : List String) (depth : Nat) (nested : Bool)
    (a : OperandId) : Formula OperandId → Prop
  | heldBack {op : Operator} (source : g.source a = .ok op) (below : nested = true)
      (held : g.isHeldBack foldable a op = .ok true) : Expands g foldable depth nested a (.slot a)
  | outside {op : Operator} (source : g.source a = .ok op)
      (free : nested = true → g.isHeldBack foldable a op = .ok false)
      (kind : op.kind.isInlinable = false) : Expands g foldable depth nested a (.slot a)
  | tensor {op : Operator} {parameter : Parameter} (source : g.source a = .ok op)
      (free : nested = true → g.isHeldBack foldable a op = .ok false)
      (constant : op.kind = .constant) (value : op.value = .ok parameter)
      (other : parameter.literal? = none) : Expands g foldable depth nested a (.slot a)
  | literal {op : Operator} {parameter : Parameter} {value : Literal}
      (source : g.source a = .ok op)
      (free : nested = true → g.isHeldBack foldable a op = .ok false)
      (constant : op.kind = .constant) (found : op.value = .ok parameter)
      (scalar : parameter.literal? = some value) :
      Expands g foldable depth nested a (.literal value)
  | computed {op : Operator} {args : List (Formula OperandId)} (source : g.source a = .ok op)
      (free : nested = true → g.isHeldBack foldable a op = .ok false)
      (kind : op.kind.isInlinable = true) (computed : op.kind ≠ .constant)
      (args_expand : List.Forall₂ (fun index arg => ∃ input, op.input index = .ok input ∧
        g.expandWithin foldable depth true input = .ok arg) op.dataPositions args) :
      Expands g foldable depth nested a (.ofKind op.kind args)

/-- How an operand is written that is not held back. -/
def writtenOut (g : Graph) (foldable : List String) (depth : Nat) (a : OperandId) (op : Operator) :
    Except Error (Formula OperandId) :=
  if op.kind.isInlinable = false then .ok (.slot a)
  else if op.kind = .constant then
    op.value.map fun parameter =>
      match parameter.literal? with
      | some value => .literal value
      | none => .slot a
  else (op.dataPositions.mapM fun index =>
    (op.input index).bind (g.expandWithin foldable depth true)).map (.ofKind op.kind)

theorem expandWithin_succ_of_source {g : Graph} {foldable : List String} {depth : Nat}
    {nested : Bool} {a : OperandId} {op : Operator} (source : g.source a = .ok op) :
    g.expandWithin foldable (depth + 1) nested a =
      (if nested then g.isHeldBack foldable a op else .ok false).bind fun heldBack =>
        if heldBack then .ok (.slot a) else g.writtenOut foldable depth a op := by
  rw [expandWithin, source, bind_ok]
  congr 1
  funext heldBack
  congr 1
  unfold writtenOut
  cases op.kind <;> rfl

theorem expandWithin_succ_of_free {g : Graph} {foldable : List String} {depth : Nat}
    {nested : Bool} {a : OperandId} {op : Operator} (source : g.source a = .ok op)
    (free : nested = true → g.isHeldBack foldable a op = .ok false) :
    g.expandWithin foldable (depth + 1) nested a = g.writtenOut foldable depth a op := by
  rw [expandWithin_succ_of_source source]
  cases nested with
  | true => rw [if_pos rfl, free rfl, bind_ok, if_neg Bool.false_ne_true]
  | false => rw [if_neg Bool.false_ne_true, bind_ok, if_neg Bool.false_ne_true]

theorem expandWithin_succ_eq_ok_iff (g : Graph) (foldable : List String) (depth : Nat)
    (nested : Bool) (a : OperandId) (formula : Formula OperandId) :
    g.expandWithin foldable (depth + 1) nested a = .ok formula ↔
      g.Expands foldable depth nested a formula := by
  constructor
  · intro run
    obtain ⟨op, source, -⟩ := (bind_eq_ok_iff _ _ _).1 run
    rw [expandWithin_succ_of_source source] at run
    obtain ⟨heldBack, decided, rest⟩ := (bind_eq_ok_iff _ _ _).1 run
    cases heldBack with
    | true =>
      obtain rfl := Except.ok.inj rest
      cases nested with
      | true => exact .heldBack source rfl decided
      | false => simp at decided
    | false =>
      have free : nested = true → g.isHeldBack foldable a op = .ok false := by
        rintro rfl
        exact decided
      rw [if_neg Bool.false_ne_true, writtenOut] at rest
      split_ifs at rest with kind constant
      · obtain rfl := Except.ok.inj rest
        exact .outside source free kind
      · obtain ⟨parameter, value, rfl⟩ := (map_eq_ok_iff _ _ _).1 rest
        cases scalar : parameter.literal? with
        | none => exact .tensor source free constant value scalar
        | some literal => exact .literal source free constant value scalar
      · obtain ⟨args, steps, rfl⟩ := (map_eq_ok_iff _ _ _).1 rest
        refine .computed source free (by simpa using kind) constant ?_
        simpa only [bind_eq_ok_iff] using (mapM_eq_ok_iff _ _ _).1 steps
  · rintro (⟨source, rfl, held⟩ | ⟨source, free, kind⟩ | ⟨source, free, constant, value, other⟩ |
      ⟨source, free, constant, found, scalar⟩ | ⟨source, free, kind, computed, args⟩)
    · rw [expandWithin_succ_of_source source, if_pos rfl, held]
      rfl
    · rw [expandWithin_succ_of_free source free, writtenOut, if_pos kind]
    · rw [expandWithin_succ_of_free source free, writtenOut]
      simp [constant, Kind.isInlinable, value, other]
    · rw [expandWithin_succ_of_free source free, writtenOut]
      simp [constant, Kind.isInlinable, found, scalar]
    · have steps := (mapM_eq_ok_iff _ _ _).2 (by simpa only [← bind_eq_ok_iff] using args)
      rw [expandWithin_succ_of_free source free, writtenOut, if_neg (by simp [kind]),
        if_neg computed, steps, map_ok]

/-- An expansion depends on the operand's producer, on whether it is held back, and on the
expansions of the inputs of its producer. -/
theorem expandWithin_succ_congr {g h : Graph} {foldable : List String} {depth : Nat}
    {nested : Bool} {a : OperandId} (source : h.source a = g.source a)
    (held : nested = true → ∀ op, g.source a = .ok op →
      h.isHeldBack foldable a op = g.isHeldBack foldable a op)
    (inputs : ∀ op, g.source a = .ok op → ∀ b ∈ op.inputs,
      h.expandWithin foldable depth true b = g.expandWithin foldable depth true b) :
    h.expandWithin foldable (depth + 1) nested a = g.expandWithin foldable (depth + 1) nested a := by
  cases found : g.source a with
  | error e =>
    rw [expandWithin, expandWithin, source, found, bind_error, bind_error]
  | ok op =>
    have args : (op.dataPositions.mapM fun index =>
        (op.input index).bind (h.expandWithin foldable depth true)) =
        op.dataPositions.mapM fun index =>
          (op.input index).bind (g.expandWithin foldable depth true) := by
      apply mapM_congr _ _ _
      intro index _
      cases input : op.input index with
      | error e => rw [bind_error, bind_error]
      | ok b => exact inputs op found b (Operator.mem_inputs_of_input input)
    have out : h.writtenOut foldable depth a op = g.writtenOut foldable depth a op := by
      rw [writtenOut, writtenOut, args]
    rw [expandWithin_succ_of_source found, expandWithin_succ_of_source (source.trans found), out]
    cases nested with
    | true => rw [held rfl op found]
    | false => rfl

/-! ## Held back operands -/

theorem Linked.mem_outputs_of_source {g : Graph} (linked : g.Linked) {a : OperandId} {op : Operator}
    (source : g.source a = .ok op) : a ∈ op.outputs := by
  obtain ⟨p, producer, found⟩ := (g.source_eq_ok_iff a op).1 source
  obtain ⟨op', found', mem⟩ := linked.producer_iff.1 producer
  obtain rfl : op = op' := Option.some.inj (found.symm.trans found')
  exact mem

/-- A value is shared if it has siblings or several consumers. -/
theorem Linked.isShared_of_source {g : Graph} (linked : g.Linked) {a : OperandId} {op : Operator}
    {operand : Operand} (source : g.source a = .ok op)
    (found : g.operands[a.index]? = some operand) :
    g.isShared op =
      .ok (decide (1 < op.outputs.length) || decide (1 < operand.consumers.length)) := by
  unfold isShared
  by_cases several : 1 < op.outputs.length
  · simp [several]
  · -- The only output is the operand itself.
    have mem := linked.mem_outputs_of_source source
    obtain ⟨b, only⟩ : ∃ b, op.outputs = [b] := by
      apply List.length_eq_one_iff.1
      have := List.length_pos_of_mem mem
      omega
    obtain rfl : a = b := by simpa [only] using mem
    have output : op.output 0 = .ok a := (op.output_eq_ok_iff 0 a).2 (by rw [only]; rfl)
    have operand_eq : g.operand a = .ok operand := (g.operand_eq_ok_iff a operand).2 found
    rw [if_neg several, output, bind_ok, Graph.consumers, operand_eq, map_ok, map_ok]
    simp [several]

/-- A value is held back if it may be a tensor and is shared or computed from constants alone. -/
theorem Linked.isHeldBack_of_source {g : Graph} (linked : g.Linked) {foldable : List String}
    {a : OperandId} {op : Operator} {operand : Operand} {tensor constant : Bool}
    (source : g.source a = .ok op) (found : g.operands[a.index]? = some operand)
    (tensorValued : g.tensorValued a = .ok tensor)
    (fromConstants : g.fromConstants foldable a = .ok constant) :
    g.isHeldBack foldable a op = .ok (tensor && (decide (1 < op.outputs.length) ||
      decide (1 < operand.consumers.length) || constant)) := by
  rw [isHeldBack, tensorValued, bind_ok, linked.isShared_of_source source found, bind_ok,
    fromConstants]
  cases tensor with
  | false => rfl
  | true =>
    cases (decide (1 < op.outputs.length) || decide (1 < operand.consumers.length)) <;> rfl

theorem WellFormed.exists_isHeldBack {g : Graph} (wellFormed : g.WellFormed)
    (foldable : List String) {a : OperandId} {op : Operator} (source : g.source a = .ok op) :
    ∃ held, g.isHeldBack foldable a op = .ok held := by
  have known := index_lt_of_source source
  obtain ⟨tensor, tensorValued⟩ := wellFormed.determined.exists_tensorValued known
  obtain ⟨constant, fromConstants⟩ := wellFormed.determined.exists_fromConstants foldable known
  exact ⟨_, wellFormed.linked.isHeldBack_of_source source (List.getElem?_eq_getElem known)
    tensorValued fromConstants⟩

/-! ## Whole expansions -/

theorem WellFormed.exists_expandWithin {g : Graph} (wellFormed : g.WellFormed)
    (foldable : List String) {depth : Nat} (nested : Bool) {a : OperandId}
    (known : a.index < g.operands.length) (enough : g.height a < depth) :
    ∃ formula, g.expandWithin foldable depth nested a = .ok formula := by
  induction depth generalizing nested a with
  | zero => omega
  | succ depth ih =>
    obtain ⟨op, source⟩ := wellFormed.determined.produced a known
    have mem := mem_operators_of_source source
    obtain ⟨held, decided⟩ := wellFormed.exists_isHeldBack foldable source
    by_cases back : nested = true ∧ held = true
    · obtain ⟨rfl, rfl⟩ := back
      exact ⟨_, (expandWithin_succ_eq_ok_iff ..).2 (.heldBack source rfl decided)⟩
    have free : nested = true → g.isHeldBack foldable a op = .ok false := by
      intro below
      rw [decided, Bool.eq_false_iff.2 fun h => back ⟨below, h⟩]
    rw [expandWithin_succ_of_free source free, writtenOut]
    split_ifs with kind constant
    · exact ⟨_, rfl⟩
    · obtain ⟨value, found⟩ := wellFormed.determined.valued op mem constant
      exact ⟨_, by rw [found, map_ok]⟩
    · obtain ⟨args, steps⟩ := exists_mapM_eq_ok (fun index =>
          (op.input index).bind (g.expandWithin foldable depth true)) op.dataPositions <| by
        intro index position
        obtain ⟨b, input, found⟩ := Operator.exists_input_eq_ok
          (Operator.lt_of_mem_dataPositions (wellFormed.determined.arity op mem) position)
        have lower := wellFormed.determined.height_lt ⟨op, source, input⟩
        rw [found, bind_ok]
        exact ih true (wellFormed.determined.input_known op mem b input) (by omega)
      exact ⟨_, by rw [steps, map_ok]⟩

theorem WellFormed.exists_expand {g : Graph} (wellFormed : g.WellFormed) (foldable : List String)
    {a : OperandId} (known : a.index < g.operands.length) :
    ∃ formula, g.expand foldable a = .ok formula := by
  have bound := wellFormed.determined.acyclic.height_lt_length known
  exact wellFormed.exists_expandWithin foldable false known (by omega)

/-- The slots of an operand's expansion are the operand itself or operands that it is computed
from. -/
theorem reflTransGen_feeds_of_mem_slots {g : Graph} {foldable : List String} {depth : Nat}
    {nested : Bool} {a : OperandId} {formula : Formula OperandId}
    (expanded : g.expandWithin foldable depth nested a = .ok formula) {b : OperandId}
    (mem : b ∈ formula.slots) : ReflTransGen g.Feeds b a := by
  induction depth generalizing nested a formula with
  | zero => cases expanded
  | succ depth ih =>
    cases (expandWithin_succ_eq_ok_iff ..).1 expanded with
    | heldBack | outside | tensor =>
      rw [Formula.slots, List.mem_singleton] at mem
      exact mem ▸ .refl
    | literal =>
      rw [Formula.slots] at mem
      cases mem
    | computed source _ _ _ args =>
      rw [Formula.slots_ofKind, Formula.mem_slotsOfAll_iff] at mem
      obtain ⟨arg, listed, mem⟩ := mem
      obtain ⟨index, -, input, found, expanded⟩ := exists_left_of_forall₂ args listed
      exact (ih expanded mem).tail ⟨_, source, Operator.mem_inputs_of_input found⟩

/-- At the top of a formula, an operand that can be written out is no slot of its own expansion. -/
theorem transGen_feeds_of_mem_slots {g : Graph} {foldable : List String} {a : OperandId}
    {op : Operator} {formula : Formula OperandId} (source : g.source a = .ok op)
    (kind : op.kind.isInlinable = true)
    (literal : ∀ parameter, op.kind = .constant → op.value = .ok parameter →
      parameter.literal? ≠ none)
    (expanded : g.expand foldable a = .ok formula) {b : OperandId} (mem : b ∈ formula.slots) :
    TransGen g.Feeds b a := by
  cases (expandWithin_succ_eq_ok_iff ..).1 expanded with
  | heldBack _ below => cases below
  | outside source' _ outside =>
    obtain rfl := Except.ok.inj (source.symm.trans source')
    rw [kind] at outside
    cases outside
  | tensor source' _ constant value other =>
    obtain rfl := Except.ok.inj (source.symm.trans source')
    exact absurd other (literal _ constant value)
  | literal =>
    rw [Formula.slots] at mem
    cases mem
  | computed source' _ _ _ args =>
    rw [Formula.slots_ofKind, Formula.mem_slotsOfAll_iff] at mem
    obtain ⟨arg, listed, mem⟩ := mem
    obtain ⟨index, -, input, found, expanded⟩ := exists_left_of_forall₂ args listed
    exact TransGen.tail' (reflTransGen_feeds_of_mem_slots expanded mem)
      ⟨_, source', Operator.mem_inputs_of_input found⟩

end Graph

end FormulaFusion
