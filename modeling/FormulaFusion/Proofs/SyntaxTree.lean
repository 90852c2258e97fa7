import FormulaFusion.Proofs.Expansion.Stops
import FormulaFusion.Proofs.Formula.RoundTrip

/-!
# Syntax trees of fused formulas

The syntax tree of an operand (`Graph.syntaxTree`) is its expansion with doubles replaced by what is
read back from their texts and with slots numbered in the order of their first appearance.  It is the
tree that the rules of the format give (`Graph.HasTree`), which compose the tree of an operator from
those of its data inputs (`Formula.Composes`) and leave out a factor that is spelled `1`.  The text of a
fused formula is the text of this tree, and parsing it gives the tree back exactly if all strings left
in the tree are words (`Graph.parse_fusedFormula`).
-/

namespace FormulaFusion

/-- Function names are words. -/
theorem Kind.isWord_of_functionName? {kind : Kind} {name : String}
    (called : kind.functionName? = some name) : Token.IsWord name := by
  cases kind with
  | unary function =>
    obtain rfl : function.name = name := by simpa [functionName?] using called
    cases function <;> decide
  | binary function =>
    obtain rfl : function.name = name := by simpa [functionName?] using called
    cases function <;> decide
  | logical connective =>
    obtain rfl : connective.name = name := by simpa [functionName?] using called
    cases connective <;> decide
  | _ =>
    simp only [functionName?, Option.some_inj, reduceCtorEq] at called
    try subst called; decide

namespace Formula

variable {σ : Type}

theorem shaped_call_pair {name : String} (word : Token.IsWord name) {first second : Formula σ}
    (shaped : first.Shaped) (shaped' : second.Shaped) : (call name [first, second]).Shaped := by
  refine .call word (by simp) ?_
  simpa using ⟨shaped, shaped'⟩

theorem shaped_scaled {formula factor : Formula σ} (shaped : formula.Shaped)
    (shaped' : factor.Shaped) : (scaled formula factor).Shaped := by
  unfold scaled
  split_ifs
  · exact shaped
  · exact shaped_call_pair (by decide) shaped shaped'

/-- The formula of an operator with arguments at all its positions. -/
theorem shaped_ofKind {op : Operator} {args : List (Formula σ)}
    (inlinable : op.kind.isInlinable = true) (computed : op.kind ≠ .constant)
    (length : args.length = op.dataPositions.length) (each : ∀ arg ∈ args, arg.Shaped) :
    (ofKind op.kind args).Shaped := by
  unfold Operator.dataPositions at length
  have called : ∀ name, op.kind.functionName? = some name → 0 < args.length →
      (call name args).Shaped := fun name found some =>
    .call (Kind.isWord_of_functionName? found) (List.ne_nil_of_length_pos some) each
  cases kind : op.kind with
  | input | output | expression | other => simp [kind, Kind.isInlinable] at inlinable
  | constant => exact absurd kind computed
  | listConstruct => exact .list each
  | numToTensor | cast | detach | scalarImplicit =>
    simp only [kind, List.length_singleton] at length
    obtain ⟨value, rfl⟩ := List.length_eq_one_iff.1 length
    exact each value List.mem_cons_self
  | size | int | unary | binary | logical =>
    simp only [kind, List.length_cons, List.length_nil] at length
    exact called _ (by rw [kind]; rfl) (by omega)
  | add | sub | rsub =>
    simp only [kind, List.length_cons, List.length_nil] at length
    obtain ⟨first, second, third, rfl⟩ := List.length_eq_three.1 length
    have shaped_first := each first (by simp)
    have shaped_second := each second (by simp)
    have shaped_third := each third (by simp)
    first
    | exact shaped_call_pair (by decide) shaped_first (shaped_scaled shaped_second shaped_third)
    | exact shaped_call_pair (by decide) (shaped_scaled shaped_first shaped_second) shaped_third

end Formula

/-! ## Expansions -/

namespace Graph

theorem shaped_of_expandWithin {g : Graph} {foldable : List String} {depth : Nat} {nested : Bool}
    {a : OperandId} {formula : Formula OperandId}
    (expanded : g.expandWithin foldable depth nested a = .ok formula) : formula.Shaped := by
  induction depth generalizing nested a formula with
  | zero => cases expanded
  | succ depth ih =>
    cases (expandWithin_succ_eq_ok_iff ..).1 expanded with
    | heldBack | outside | tensor => exact .slot a
    | literal => exact .literal _
    | computed source _ inlinable computed args =>
      apply Formula.shaped_ofKind inlinable computed args.length_eq.symm
      intro arg mem
      obtain ⟨index, -, input, -, expanded⟩ := exists_left_of_forall₂ args mem
      exact ih expanded

/-- Slots are operands of the graph. -/
theorem index_lt_of_mem_slots {g : Graph} {foldable : List String} {depth : Nat} {nested : Bool}
    {a b : OperandId} {formula : Formula OperandId}
    (expanded : g.expandWithin foldable depth nested a = .ok formula) (mem : b ∈ formula.slots) :
    b.index < g.operands.length := by
  induction depth generalizing nested a formula with
  | zero => cases expanded
  | succ depth ih =>
    cases (expandWithin_succ_eq_ok_iff ..).1 expanded with
    | heldBack source | outside source | tensor source =>
      rw [Formula.slots, List.mem_singleton] at mem
      exact mem ▸ index_lt_of_source source
    | literal =>
      rw [Formula.slots] at mem
      cases mem
    | computed _ _ _ _ args =>
      rw [Formula.slots_ofKind, Formula.mem_slotsOfAll_iff] at mem
      obtain ⟨arg, listed, mem⟩ := mem
      obtain ⟨index, -, input, -, expanded⟩ := exists_left_of_forall₂ args listed
      exact ih expanded mem

end Graph

/-! ## Numbered slots -/

/-- Slots count up when operands are numbered in the order in which a frontier meets them. -/
theorem Frontier.countsUpFrom_meetAll (f : Frontier) (ids : List OperandId) :
    Formula.countsUpFrom f.operands.length (ids.map (f.meetAll ids).operands.idxOf) = true := by
  induction ids generalizing f with
  | nil => rfl
  | cons id rest ih =>
    have tail := ih (f.meet id).1
    rw [← operands_meetAll_cons] at tail
    rw [List.map_cons, Formula.countsUpFrom]
    by_cases met : id ∈ f.operands
    · have place : (f.meetAll (id :: rest)).operands.idxOf id = f.operands.idxOf id := by
        rw [operands_meetAll, List.idxOf_append, if_pos met]
      have below := List.idxOf_lt_length_of_mem met
      have same : (f.meet id).1.operands.length = f.operands.length := by
        rw [operands_meet, if_pos met]
      rw [same] at tail
      rw [place, if_neg (by omega), tail, decide_eq_true below]
      rfl
    · have place : (f.meetAll (id :: rest)).operands.idxOf id = f.operands.length := by
        rw [operands_meetAll_cons, operands_meetAll, operands_meet, if_neg met]
        simp [List.idxOf_append, met]
      have next : (f.meet id).1.operands.length = f.operands.length + 1 := by
        rw [operands_meet, if_neg met, List.length_append, List.length_singleton]
      rw [next] at tail
      rw [place, if_pos rfl, tail]

namespace Formula

/-- The number of an operand among the slots of a formula: its place in the order in which they
first appear. -/
def slotNumber (formula : Formula OperandId) (id : OperandId) : Nat :=
  formula.slots.eraseDups.idxOf id

theorem nodup_eraseDups_slots (formula : Formula OperandId) : formula.slots.eraseDups.Nodup := by
  rw [← Frontier.operands_ofList]
  exact Frontier.nodup_operands_ofList _

theorem slotNumber_lt {formula : Formula OperandId} {id : OperandId} (mem : id ∈ formula.slots) :
    formula.slotNumber id < formula.slots.eraseDups.length :=
  List.idxOf_lt_length_of_mem (List.mem_eraseDups.2 mem)

theorem isDense_relabel_slotNumber (formula : Formula OperandId) :
    (formula.relabel formula.slotNumber).isDense = true := by
  have counts := Frontier.countsUpFrom_meetAll .empty formula.slots
  change countsUpFrom 0 (formula.slots.map (Frontier.ofList formula.slots).operands.idxOf) = true
    at counts
  rw [Frontier.operands_ofList] at counts
  rw [isDense, slots_relabel]
  exact counts

theorem slotBound_relabel_slotNumber {formula : Formula OperandId}
    (small : formula.slots.eraseDups.length < 2 ^ 64) :
    (formula.relabel formula.slotNumber).slotBound = .ok formula.slots.eraseDups.length := by
  have distinct := formula.nodup_eraseDups_slots
  rw [slotBound, slots_relabel]
  by_cases empty : formula.slots = []
  · simp [empty]
  · have positive : 0 < formula.slots.eraseDups.length := by
      obtain ⟨id, mem⟩ := List.exists_mem_of_ne_nil _ empty
      exact List.length_pos_of_mem (List.mem_eraseDups.2 mem)
    have largest : (formula.slots.map formula.slotNumber).max? =
        some (formula.slots.eraseDups.length - 1) := by
      rw [List.max?_eq_some_iff]
      constructor
      · -- The operand that was met last has the largest number.
        refine List.mem_map.2 ⟨formula.slots.eraseDups[formula.slots.eraseDups.length - 1], ?_, ?_⟩
        · exact List.mem_eraseDups.1 (List.getElem_mem _)
        · exact distinct.idxOf_getElem _ (by omega)
      · intro number mem
        obtain ⟨id, slot, rfl⟩ := List.mem_map.1 mem
        have := slotNumber_lt slot
        omega
    rw [largest]
    simp only
    rw [Nat.pow_eq, if_pos (by omega), Nat.sub_add_cancel positive]

end Formula

/-- Slots are numbered by their places among the distinct operands of the formula. -/
theorem FusedFormula.ofFormula_eq (formula : Formula OperandId) :
    ofFormula formula = ⟨formula.relabel formula.slotNumber, formula.slots.eraseDups⟩ := by
  have numbered : formula.relabel (fun id => ((Frontier.ofList formula.slots).slot? id).getD 0) =
      formula.relabel formula.slotNumber := by
    refine Formula.relabel_congr fun id mem => ?_
    rw [Frontier.slot?_eq_some_idxOf ((Frontier.mem_operands_ofList_iff _ id).2 mem),
      Frontier.operands_ofList]
    rfl
  rw [ofFormula, numbered, Frontier.operands_ofList]

/-! ## Trees by the rules of the format -/

namespace Formula

/-- The formula with its slots numbered and its doubles as they are read back from their texts. -/
def toTree (number : OperandId → Nat) (formula : Formula OperandId) : Formula Nat :=
  (formula.mapLiterals Literal.reread).relabel number

/-- A tree times a factor, which is left out exactly if it is spelled `1`. -/
def product (tree factor : Formula Nat) : Formula Nat :=
  if factor.text = ['1'] then tree else call "mul" [tree, factor]

/-- The tree of an operator of a given kind, made of the trees of its data inputs. -/
inductive Composes : Kind → List (Formula Nat) → Formula Nat → Prop
  | value {kind : Kind} {tree : Formula Nat}
      (passed : kind = .numToTensor ∨ kind = .cast ∨ kind = .detach ∨ kind = .scalarImplicit) :
      Composes kind [tree] tree
  | list {items : List (Formula Nat)} : Composes .listConstruct items (list items)
  | call {kind : Kind} {name : String} {args : List (Formula Nat)}
      (called : kind = .size ∨ kind = .int ∨ (∃ f, kind = .unary f) ∨ (∃ f, kind = .binary f) ∨
        ∃ c, kind = .logical c)
      (named : kind.functionName? = some name) (nonempty : args ≠ []) :
      Composes kind args (call name args)
  | add {value other factor : Formula Nat} :
      Composes .add [value, other, factor] (call "add" [value, other.product factor])
  | sub {value other factor : Formula Nat} :
      Composes .sub [value, other, factor] (call "sub" [value, other.product factor])
  | rsub {value other factor : Formula Nat} :
      Composes .rsub [other, factor, value] (call "sub" [other.product factor, value])

/-- A formula is a unit exactly if it is spelled `1`. -/
theorem isUnit_iff (formula : Formula Nat) : formula.isUnit = true ↔ formula.text = ['1'] := by
  cases formula with
  | literal value => simp [isUnit, text]
  | slot index => simp [isUnit, text]
  | call name args =>
    simp only [isUnit, Bool.false_eq_true, text, false_iff]
    intro same
    have mem : '(' ∈ ['1'] := by
      rw [← same]
      simp
    simp at mem
  | list items => simp [isUnit, text]

variable {number : OperandId → Nat}

theorem toTree_call (name : String) (args : List (Formula OperandId)) :
    (call name args).toTree number = call name (args.map (toTree number)) := by
  rw [toTree, mapLiterals, relabel, mapLiteralsAll_eq_map, relabelAll_eq_map, List.map_map]
  rfl

theorem toTree_list (items : List (Formula OperandId)) :
    (list items).toTree number = list (items.map (toTree number)) := by
  rw [toTree, mapLiterals, relabel, mapLiteralsAll_eq_map, relabelAll_eq_map, List.map_map]
  rfl

/-- Neither numbers of slots nor rereading decide whether a formula is spelled `1`. -/
theorem isUnit_toTree (formula : Formula OperandId) :
    (formula.toTree number).isUnit = formula.isUnit := by
  cases formula with
  | literal value =>
    rw [toTree, mapLiterals, relabel, isUnit, isUnit, Literal.text_reread]
  | slot label => rfl
  | call name args =>
    rw [toTree_call]
    rfl
  | list items =>
    rw [toTree_list]
    rfl

theorem toTree_ofKind (kind : Kind) (args : List (Formula OperandId)) :
    (ofKind kind args).toTree number = ofKind kind (args.map (toTree number)) :=
  change_ofKind toTree_call toTree_list isUnit_toTree kind args

/-- A factor is left out exactly if it is spelled `1`. -/
theorem scaled_eq_product (tree factor : Formula Nat) : scaled tree factor = tree.product factor := by
  unfold scaled product
  simp only [isUnit_iff]

-- What counts is the spelling: a string is left out as well as the integer.
example (tree : Formula Nat) : tree.product (literal (.int 1)) = tree ∧
    tree.product (literal (.string "1")) = tree := ⟨if_pos (by decide), rfl⟩

/-- The rules give the formula of an operator with arguments at all its positions. -/
theorem composes_ofKind {op : Operator} {args : List (Formula Nat)}
    (inlinable : op.kind.isInlinable = true) (computed : op.kind ≠ .constant)
    (length : args.length = op.dataPositions.length) :
    Composes op.kind args (ofKind op.kind args) := by
  unfold Operator.dataPositions at length
  cases kind : op.kind with
  | input | output | expression | other => simp [kind, Kind.isInlinable] at inlinable
  | constant => exact absurd kind computed
  | listConstruct => exact .list
  | numToTensor | cast | detach | scalarImplicit =>
    simp only [kind, List.length_singleton] at length
    obtain ⟨value, rfl⟩ := List.length_eq_one_iff.1 length
    exact .value (by simp)
  | size | int | unary | binary | logical =>
    simp only [kind, List.length_cons, List.length_nil] at length
    exact .call (by simp) rfl (List.ne_nil_of_length_pos (by omega))
  | add | sub | rsub =>
    simp only [kind, List.length_cons, List.length_nil] at length
    obtain ⟨first, second, third, rfl⟩ := List.length_eq_three.1 length
    rw [ofKind, scaled_eq_product]
    constructor

theorem Composes.unique {kind : Kind} {args : List (Formula Nat)} {tree tree' : Formula Nat}
    (composes : Composes kind args tree) (composes' : Composes kind args tree') : tree = tree' := by
  cases composes with
  | value passed =>
    cases composes' with
    | value => rfl
    | list => simp at passed
    | call _ named => rcases passed with rfl | rfl | rfl | rfl <;> cases named
  | call called named =>
    cases composes' with
    | value passed => rcases passed with rfl | rfl | rfl | rfl <;> cases named
    | call _ named' => rw [Option.some.inj (named.symm.trans named')]
    | list | add | sub | rsub => simp at called
  | list =>
    cases composes' with
    | value passed => simp at passed
    | call called => simp at called
    | list => rfl
  | add | sub | rsub =>
    cases composes' with
    | call called => simp at called
    | _ => rfl

end Formula

/-! ## Syntax trees -/

namespace Graph

/-- The syntax tree of an operand's expansion: every double is the one that is read back from its
text, and the slots are numbered in the order in which they first appear. -/
def syntaxTree (g : Graph) (foldable : List String) (id : OperandId) : Except Error (Formula Nat) :=
  (g.expand foldable id).map fun formula =>
    (formula.mapLiterals Literal.reread).relabel formula.slotNumber

/-- The tree of an operand by the rules of the format: a slot where an expansion stops, a literal as it
is read back from its text, and otherwise what the trees of the data inputs compose. -/
inductive HasTree (g : Graph) (foldable : List String) (number : OperandId → Nat) :
    Bool → OperandId → Formula Nat → Prop
  | slot {nested : Bool} {a : OperandId} (stopped : g.StopsAt foldable nested a) :
      HasTree g foldable number nested a (.slot (number a))
  | literal {nested : Bool} {a : OperandId} {op : Operator} {value : Literal}
      (clear : ¬g.StopsAt foldable nested a) (source : g.source a = .ok op)
      (constant : op.kind = .constant) (found : op.value = .ok (.literal value)) :
      HasTree g foldable number nested a (.literal value.reread)
  | composed {nested : Bool} {a : OperandId} {op : Operator} {args : List (Formula Nat)}
      {tree : Formula Nat} (clear : ¬g.StopsAt foldable nested a) (source : g.source a = .ok op)
      (computed : op.kind ≠ .constant)
      (inputs : List.Forall₂ (HasTree g foldable number true) op.dataInputs args)
      (composes : Formula.Composes op.kind args tree) : HasTree g foldable number nested a tree

/-- The rules give the expansion of an operand and nothing else. -/
theorem hasTree_iff {g : Graph} {foldable : List String} {number : OperandId → Nat} {depth : Nat}
    {nested : Bool} {a : OperandId} {formula : Formula OperandId}
    (expanded : g.expandWithin foldable depth nested a = .ok formula) (tree : Formula Nat) :
    g.HasTree foldable number nested a tree ↔ tree = formula.toTree number := by
  induction depth generalizing nested a formula tree with
  | zero => cases expanded
  | succ depth ih =>
    cases ((expandWithin_succ_eq_ok_iff ..).1 expanded).goesOn with
    | stop stopped =>
      constructor
      · intro has
        cases has with
        | slot => rfl
        | literal clear => exact absurd stopped clear
        | composed clear => exact absurd stopped clear
      · rintro rfl
        exact .slot stopped
    | literal clear source constant found =>
      constructor
      · intro has
        cases has with
        | slot stopped => exact absurd stopped clear
        | literal _ source' _ found' =>
          obtain rfl := Except.ok.inj (source.symm.trans source')
          obtain rfl := Parameter.literal.inj (Except.ok.inj (found.symm.trans found'))
          rfl
        | composed _ source' computed =>
          obtain rfl := Except.ok.inj (source.symm.trans source')
          exact absurd constant computed
      · rintro rfl
        exact .literal clear source constant found
    | @computed op args clear source computed complete inputs =>
      have trees : ∀ trees, List.Forall₂ (g.HasTree foldable number true) op.dataInputs trees ↔
          trees = args.map (Formula.toTree number) :=
        forall₂_iff_eq_map (inputs.imp fun b arg expanded tree => ih expanded tree)
      have inlinable : op.kind.isInlinable = true := by
        by_contra outside
        exact clear (.inl (opaque_of_not_isInlinable source (by simpa using outside)))
      have length : (args.map (Formula.toTree number)).length = op.dataPositions.length := by
        rw [List.length_map, complete]
      have composes := Formula.composes_ofKind inlinable computed length
      rw [Formula.toTree_ofKind]
      constructor
      · intro has
        cases has with
        | slot stopped => exact absurd stopped clear
        | literal _ source' constant =>
          obtain rfl := Except.ok.inj (source.symm.trans source')
          exact absurd constant computed
        | composed _ source' _ inputs' composes' =>
          obtain rfl := Except.ok.inj (source.symm.trans source')
          obtain rfl := (trees _).1 inputs'
          exact composes'.unique composes
      · rintro rfl
        exact .composed clear source computed ((trees _).2 rfl) composes

/-- The number of slots is bounded by the number of operands. -/
theorem length_slots_le {g : Graph} {foldable : List String} {id : OperandId}
    {formula : Formula OperandId} (expanded : g.expand foldable id = .ok formula) :
    formula.slots.eraseDups.length ≤ g.operands.length := by
  have distinct := formula.nodup_eraseDups_slots
  have inside : formula.slots.eraseDups ⊆ g.operandIds := by
    intro a mem
    refine List.mem_map.2 ⟨a.index, List.mem_range.2 ?_, rfl⟩
    exact index_lt_of_mem_slots expanded (List.mem_eraseDups.1 mem)
  have bound := distinct.length_le_of_subset inside
  simpa [operandIds] using bound

/-- The formula of a fused operand is its expansion with numbered slots. -/
theorem exists_expand_of_fusedFormula {g : Graph} {foldable : List String} {id : OperandId}
    {fused : FusedFormula} (built : g.fusedFormula foldable id = .ok fused) :
    ∃ formula, g.expand foldable id = .ok formula ∧
      fused.formula = formula.relabel formula.slotNumber ∧
      fused.inputs = formula.slots.eraseDups := by
  obtain ⟨formula, expanded, rfl⟩ := (map_eq_ok_iff _ _ _).1 built
  rw [FusedFormula.ofFormula_eq]
  exact ⟨formula, expanded, rfl, rfl⟩

/-- The text of a fused formula is read back if the literals of the expansion are. -/
theorem parse_render_of_expand {g : Graph} (small : g.operands.length < 2 ^ 64)
    {foldable : List String} {id : OperandId} {formula : Formula OperandId}
    (expanded : g.expand foldable id = .ok formula) {read : Literal → Literal}
    (literals : ∀ l ∈ formula.literals,
      Formula.parse (String.ofList l.text) = .ok (.literal (read l))) :
    Formula.parse (formula.relabel formula.slotNumber).render =
      .ok ((formula.relabel formula.slotNumber).mapLiterals read) := by
  apply ((shaped_of_expandWithin expanded).relabel formula.slotNumber).parse_render
  · rw [Formula.literals_relabel]
    exact literals
  · intro number mem
    rw [Formula.slots_relabel] at mem
    obtain ⟨id, slot, rfl⟩ := List.mem_map.1 mem
    exact (Formula.slotNumber_lt slot).trans ((length_slots_le expanded).trans_lt small)

/-- The text of a fused formula is that of its syntax tree.  This is the only tree that the rules of the
format give for the operand if slots are numbered by the places of their operands among the inputs; so
the factor of a sum or a difference is left out exactly if it is spelled `1`.  The text is read back as
the tree exactly if all strings in the tree are words.  The slots of the tree are dense, and there is
one for every input. -/
theorem parse_fusedFormula {g : Graph} (small : g.operands.length < 2 ^ 64) {foldable : List String}
    {id : OperandId} {fused : FusedFormula} (built : g.fusedFormula foldable id = .ok fused) :
    ∃ tree, g.syntaxTree foldable id = .ok tree ∧
      (∀ tree', g.HasTree foldable fused.inputs.idxOf false id tree' ↔ tree' = tree) ∧
      tree.render = fused.text ∧
      (Formula.parse fused.text = .ok tree ↔
        ∀ name, Literal.string name ∈ tree.literals → Token.IsWord name) ∧
      tree.isDense = true ∧ tree.slotBound = .ok fused.inputs.length ∧ fused.inputs.Nodup := by
  obtain ⟨formula, expanded, formula_eq, inputs⟩ := exists_expand_of_fusedFormula built
  have count := length_slots_le expanded
  refine ⟨_, by rw [syntaxTree, expanded, map_ok], by rw [inputs]; exact hasTree_iff expanded, ?_⟩
  rw [← Formula.mapLiterals_relabel, FusedFormula.text, formula_eq, inputs]
  refine ⟨?_, ⟨fun parsed name mem => Formula.isWord_of_parse parsed mem, fun words => ?_⟩, ?_, ?_,
    formula.nodup_eraseDups_slots⟩
  · rw [Formula.render, Formula.render, Formula.text_mapLiterals Literal.text_reread]
  · refine parse_render_of_expand small expanded fun l mem => Formula.parse_text_literal ?_
    rintro name rfl
    apply words name
    rwa [Formula.string_mem_literals_reread_iff, Formula.literals_relabel]
  · rw [Formula.isDense, Formula.slots_mapLiterals]
    exact formula.isDense_relabel_slotNumber
  · rw [Formula.slotBound, Formula.slots_mapLiterals]
    exact Formula.slotBound_relabel_slotNumber (count.trans_lt small)

/-- A list of a double, a string and a graph input. -/
def mixedList : Graph where
  operators :=
    [{ kind := .input, name := "in", outputs := [⟨0⟩] },
     { kind := .constant, name := "tenth", outputs := [⟨1⟩]
       params := .singleton "value" (.literal (.float ⟨0x3FB999999999999A⟩)) },
     { kind := .constant, name := "mode", outputs := [⟨2⟩]
       params := .singleton "value" (.literal (.string "floor")) },
     { kind := .listConstruct, name := "list", inputs := [⟨1⟩, ⟨2⟩, ⟨0⟩], outputs := [⟨3⟩] },
     { kind := .output, name := "out", inputs := [⟨3⟩] }]
  operands :=
    [⟨"x", some ⟨0⟩, [⟨3⟩]⟩, ⟨"c", some ⟨1⟩, [⟨3⟩]⟩, ⟨"s", some ⟨2⟩, [⟨3⟩]⟩,
     ⟨"l", some ⟨3⟩, [⟨4⟩]⟩]

theorem parse_fusedFormula_mixedList :
    mixedList.operands.length < 2 ^ 64 ∧
      ∃ fused, mixedList.fusedFormula [] ⟨3⟩ = .ok fused ∧ fused.inputs = [⟨0⟩] ∧
        mixedList.HasTree [] fused.inputs.idxOf false ⟨3⟩
          (.list [.literal (.float (Binary64.reread ⟨0x3FB999999999999A⟩)),
            .literal (.string "floor"), .slot 0]) ∧
        Formula.parse fused.text =
          .ok (.list [.literal (.float (Binary64.reread ⟨0x3FB999999999999A⟩)),
            .literal (.string "floor"), .slot 0]) := by
  have small : mixedList.operands.length < 2 ^ 64 := by decide
  obtain ⟨fused, built, inputs⟩ : ∃ fused, mixedList.fusedFormula [] ⟨3⟩ = .ok fused ∧
      fused.inputs = [⟨0⟩] := ⟨_, rfl, rfl⟩
  obtain ⟨tree, shape, only, -, parsed, -⟩ := parse_fusedFormula small built
  obtain rfl : .list [.literal (.float (Binary64.reread ⟨0x3FB999999999999A⟩)),
      .literal (.string "floor"), .slot 0] = tree := Except.ok.inj shape
  refine ⟨small, fused, built, inputs, (only _).2 rfl, parsed.2 fun name mem => ?_⟩
  obtain rfl : name = "floor" := by simpa [Formula.literals, Formula.literalsOfAll] using mem
  decide

end Graph

end FormulaFusion
