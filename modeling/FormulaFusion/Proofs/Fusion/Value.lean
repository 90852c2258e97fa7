import FormulaFusion.Proofs.Fusion.Run
import FormulaFusion.Proofs.SyntaxTree
import FormulaFusion.Proofs.Value

/-!
# Fusion keeps the values of operands

The expansion of an operand has the operand's value (`Determined.eval?_expandWithin`): the formula of
each kind of operator agrees with the kind's meaning, also where the factor `1` is left out and where
`rsub` reads its inputs in another order.  The text of a fused formula is read as a formula with the
same value over the frontier (`Graph.exists_parse_eval?`).  So a step keeps the values of the outputs of
the operator that it rewrites, and with them those of all operands (`Step.value?_eq_some`); by induction
a run does (`Fusion.value?_run`).  All this takes outputs to record their operator as producer.  Where
they do not, an operator may be given the formula of an operand that it does not produce
(`Fusion.value?_run_ne_crossedConstants`).
-/

universe u

namespace FormulaFusion

variable {V : Type u} {I : Interpretation V}

/-! ## Values of expansions -/

theorem mapM_eq_some_of_forall₂ {α β : Type} {f : α → Option V} {f' : β → Option V} {as : List α}
    {bs : List β}
    (pairs : List.Forall₂ (fun a b => ∀ value, f a = some value → f' b = some value) as bs)
    {values : List V} (run : as.mapM f = some values) : bs.mapM f' = some values := by
  rw [mapM_eq_some_iff] at run ⊢
  induction pairs generalizing values with
  | nil =>
    cases run
    exact .nil
  | cons pair _ ih =>
    cases run with
    | cons first others => exact .cons (pair _ first) (ih others)

namespace Operator

/-- The formula has the value of the input at the given position, if the input has a value. -/
def Reads {σ : Type} (op : Operator) (I : Interpretation V) (values : OperandId → Option V)
    (slots : σ → Option V) (index : Nat) (arg : Formula σ) : Prop :=
  ∃ input, op.input index = .ok input ∧
    ∀ value, values input = some value → arg.eval? I I.spelled? slots = some value

variable {σ : Type} {op : Operator} {values : OperandId → Option V} {slots : σ → Option V}
  {args : List (Formula σ)}

theorem Reads.eval? {index : Nat} {arg : Formula σ} (reads : op.Reads I values slots index arg)
    {input : OperandId} (place : op.inputs[index]? = some input) {value : V}
    (found : values input = some value) : arg.eval? I I.spelled? slots = some value := by
  obtain ⟨input', place', same⟩ := reads
  rw [op.input_eq_ok_iff, place, Option.some_inj] at place'
  exact same value (place' ▸ found)

/-- Formulas that read all inputs in order have the values of the inputs. -/
theorem mapM_eval?_of_reads
    (each : List.Forall₂ (op.Reads I values slots) (List.range op.inputs.length) args)
    {inputs : List V} (listed : op.inputs.mapM values = some inputs) :
    args.mapM (Formula.eval? I I.spelled? slots) = some inputs := by
  rw [List.forall₂_iff_get] at each
  obtain ⟨length, each⟩ := each
  rw [List.length_range] at length
  refine mapM_eq_some_of_forall₂ (List.forall₂_iff_get.2 ⟨length, ?_⟩) listed
  intro i inside inside' value found
  have reads := each i (by simpa using inside) inside'
  rw [List.get_eq_getElem, List.getElem_range] at reads
  exact reads.eval? (List.getElem?_eq_getElem inside) found

/-- Formulas that read three inputs have their values, in whatever order they stand. -/
theorem exists_three_values (count : op.inputs.length = 3) {inputs : List V}
    (listed : op.inputs.mapM values = some inputs) : ∃ v w t, inputs = [v, w, t] ∧
      ∀ x y z : Formula σ, op.Reads I values slots 0 x → op.Reads I values slots 1 y →
        op.Reads I values slots 2 z → x.eval? I I.spelled? slots = some v ∧
          y.eval? I I.spelled? slots = some w ∧ z.eval? I I.spelled? slots = some t := by
  obtain ⟨b, c, d, three⟩ := List.length_eq_three.1 count
  rw [mapM_eq_some_iff, three] at listed
  obtain ⟨v, w, t, rfl, found, found', found''⟩ := forall₂_triple_iff.1 listed
  refine ⟨v, w, t, rfl, fun x y z first second third => ⟨?_, ?_, ?_⟩⟩
  · exact first.eval? (by rw [three]; rfl) found
  · exact second.eval? (by rw [three]; rfl) found'
  · exact third.eval? (by rw [three]; rfl) found''

end Operator

theorem Literal.read?_int (value : Int64) : (int value).read? = some (.int value) :=
  (read?_eq_some_iff _ _).2 (Formula.parse_text_literal nofun)

theorem Literal.read?_of_text_eq_one {l : Literal} (text : l.text = ['1']) :
    l.read? = some (.int 1) := by
  have spelling : l.text = (int 1).text := by
    rw [text]
    decide
  rw [← read?_int 1, read?, read?, spelling]

namespace Formula

variable {σ : Type}

theorem eval?_call {name : String} {literals : Literal → Option V} {slots : σ → Option V}
    {args : List (Formula σ)} {values : List V}
    (run : args.mapM (eval? I literals slots) = some values) :
    (call name args).eval? I literals slots = some (I.call name values) := by
  rw [eval?, evalAll?_eq_mapM, run, Option.map_some]

theorem eval?_call_pair {name : String} {literals : Literal → Option V} {slots : σ → Option V}
    {first second : Formula σ} {value value' : V} (run : first.eval? I literals slots = some value)
    (run' : second.eval? I literals slots = some value') :
    (call name [first, second]).eval? I literals slots = some (I.call name [value, value']) := by
  apply eval?_call
  rw [mapM_eq_some_iff]
  exact .cons run (.cons run' .nil)

/-- Leaving out the factor `1` does not change the value of a product. -/
theorem eval?_scaled (unit : ∀ v, I.call "mul" [v, I.literal (.int 1)] = v) {slots : σ → Option V}
    {formula factor : Formula σ} {value times : V}
    (run : formula.eval? I I.spelled? slots = some value)
    (run' : factor.eval? I I.spelled? slots = some times) :
    (scaled formula factor).eval? I I.spelled? slots = some (I.call "mul" [value, times]) := by
  unfold scaled
  split_ifs with one
  · cases factor with
    | literal l =>
      have text : l.text = ['1'] := by simpa [isUnit] using one
      rw [eval?, Interpretation.spelled?, Literal.read?_of_text_eq_one text] at run'
      rw [run, ← Option.some.inj run', unit]
    | _ => cases one
  · exact eval?_call_pair run run'

/-- The formula of an operator has the value of the operator if the formulas of its inputs have the
values of the inputs. -/
theorem eval?_ofKind (unit : ∀ v, I.call "mul" [v, I.literal (.int 1)] = v) {op : Operator}
    {given : Bool} {values : OperandId → Option V} {slots : σ → Option V} {args : List (Formula σ)}
    {a : OperandId} {value : V} (inlinable : op.kind.isInlinable = true)
    (computed : op.kind ≠ .constant) (arity : op.kind.arity.accepts op.inputs.length = true)
    (each : List.Forall₂ (op.Reads I values slots) op.dataPositions args)
    (run : op.eval? I given values a = some value) :
    (ofKind op.kind args).eval? I I.spelled? slots = some value := by
  unfold Operator.eval? at run
  unfold Operator.dataPositions at each
  cases kind : op.kind with
  | input | output | expression | other => simp [kind, Kind.isInlinable] at inlinable
  | constant => exact absurd kind computed
  | numToTensor | cast | detach | scalarImplicit =>
    rw [kind] at each run
    obtain ⟨arg, _, reads, rest, rfl⟩ := List.forall₂_cons_left_iff.1 each
    cases rest
    obtain ⟨input, head, found⟩ := Option.bind_eq_some_iff.1 run
    rw [List.head?_eq_getElem?] at head
    exact reads.eval? head found
  | listConstruct =>
    rw [kind] at each run
    obtain ⟨inputs, listed, rfl⟩ := Option.map_eq_some_iff.1 run
    rw [ofKind, eval?, evalAll?_eq_mapM, Operator.mapM_eval?_of_reads each listed]
    rfl
  | int | unary =>
    have count : op.inputs.length = 1 := by simpa [kind, Kind.arity, Arity.accepts] using arity
    rw [kind] at each run
    obtain ⟨inputs, listed, rfl⟩ := Option.map_eq_some_iff.1 run
    exact eval?_call (Operator.mapM_eval?_of_reads (by rw [count]; exact each) listed)
  | size | binary | logical =>
    have count : op.inputs.length = 2 := by simpa [kind, Kind.arity, Arity.accepts] using arity
    rw [kind] at each run
    obtain ⟨inputs, listed, rfl⟩ := Option.map_eq_some_iff.1 run
    exact eval?_call (Operator.mapM_eval?_of_reads (by rw [count]; exact each) listed)
  | add | sub =>
    have count : op.inputs.length = 3 := by simpa [kind, Kind.arity, Arity.accepts] using arity
    rw [kind] at each run
    obtain ⟨inputs, listed, rfl⟩ := Option.map_eq_some_iff.1 run
    obtain ⟨v, w, t, rfl, values⟩ := Operator.exists_three_values count listed
    obtain ⟨x, y, z, rfl, first, second, third⟩ := forall₂_triple_iff.1 each
    obtain ⟨x_value, y_value, z_value⟩ := values x y z first second third
    exact eval?_call_pair x_value (eval?_scaled unit y_value z_value)
  | rsub =>
    -- The formula reads the first input last.
    have count : op.inputs.length = 3 := by simpa [kind, Kind.arity, Arity.accepts] using arity
    rw [kind] at each run
    obtain ⟨inputs, listed, rfl⟩ := Option.map_eq_some_iff.1 run
    obtain ⟨v, w, t, rfl, values⟩ := Operator.exists_three_values count listed
    obtain ⟨y, z, x, rfl, second, third, first⟩ := forall₂_triple_iff.1 each
    obtain ⟨x_value, y_value, z_value⟩ := values x y z first second third
    exact eval?_call_pair (eval?_scaled unit y_value z_value) x_value

end Formula

namespace Graph

variable {given : OperatorId → Bool}

/-- An operand and its expansion have the same value. -/
theorem Determined.eval?_expandWithin (unit : ∀ v, I.call "mul" [v, I.literal (.int 1)] = v)
    {g : Graph} (determined : g.Determined) {foldable : List String} {depth : Nat} {nested : Bool}
    {a : OperandId} {formula : Formula OperandId}
    (expanded : g.expandWithin foldable depth nested a = .ok formula) {value : V}
    (found : g.value? I given a = some value) :
    formula.eval? I I.spelled? (g.value? I given) = some value := by
  induction depth generalizing nested a formula value with
  | zero => cases expanded
  | succ depth ih =>
    cases (expandWithin_succ_eq_ok_iff ..).1 expanded with
    | heldBack | outside | tensor =>
      rw [Formula.eval?]
      exact found
    | @literal op parameter l source _ constant held scalar =>
      obtain ⟨p, producer, place⟩ := (g.source_eq_ok_iff a op).1 source
      obtain rfl : parameter = .literal l := by
        cases parameter <;> simp_all [Parameter.literal?]
      rw [determined.value?_eq producer place, Operator.eval?, constant] at found
      dsimp only at found
      rw [held] at found
      rw [Formula.eval?]
      exact found
    | @computed op args source _ inlinable computed args_expand =>
      obtain ⟨p, producer, place⟩ := (g.source_eq_ok_iff a op).1 source
      rw [determined.value?_eq producer place] at found
      have arity := determined.arity op (mem_operators_of_source source)
      refine Formula.eval?_ofKind unit inlinable computed arity ?_ found
      apply args_expand.imp
      intro index arg
      rintro ⟨input, position, expanded⟩
      exact ⟨input, position, fun value found => ih expanded found⟩

/-- The text of a fused formula is read as a formula with the value of the expansion. -/
theorem exists_parse_eval? {g : Graph} (small : g.operands.length < 2 ^ 64) {foldable : List String}
    {a : OperandId} {fused : FusedFormula} (built : g.fusedFormula foldable a = .ok fused) :
    ∃ formula, g.expand foldable a = .ok formula ∧
      ∀ (values values' : OperandId → Option V) (value : V),
        formula.eval? I I.spelled? values = some value →
        (∀ s ∈ formula.slots, ∀ v, values s = some v → values' s = some v) →
        ∃ parsed, Formula.parse fused.text = .ok parsed ∧
          parsed.eval? I (some ∘ I.literal) (fun index => fused.inputs[index]?.bind values') =
            some value := by
  obtain ⟨formula, expanded, formula_eq, inputs⟩ := exists_expand_of_fusedFormula built
  refine ⟨formula, expanded, fun values values' value run same => ?_⟩
  -- A formula with a value has no literal that cannot be read.
  have readable : ∀ l ∈ formula.literals, ∃ found, l.read? = some found := by
    intro l mem
    obtain ⟨_, spelled⟩ := Formula.exists_of_mem_literals run mem
    obtain ⟨found, read, -⟩ := Option.map_eq_some_iff.1 spelled
    exact ⟨found, read⟩
  have parsed : Formula.parse (formula.relabel formula.slotNumber).render =
      .ok ((formula.relabel formula.slotNumber).mapLiterals fun l => l.read?.getD l) := by
    apply parse_render_of_expand small expanded
    intro l mem
    obtain ⟨found, read⟩ := readable l mem
    rw [← Literal.read?_eq_some_iff, read, Option.getD_some]
  rw [FusedFormula.text, formula_eq, inputs]
  refine ⟨_, parsed, ?_⟩
  rw [Formula.eval?_relabel_mapLiterals]
  refine Formula.eval?_mono (fun l mem v spelled => ?_) (fun s slot v found => ?_) run
  · obtain ⟨found, read⟩ := readable l mem
    rw [Interpretation.spelled?, read] at spelled
    simpa [read] using spelled
  · have place : formula.slots.eraseDups[formula.slotNumber s]? = some s :=
      List.getElem?_idxOf (List.mem_eraseDups.2 slot)
    rw [Function.comp_apply, place, Option.bind_some]
    exact same s slot v found

end Graph

/-! ## Steps -/

/-- The value of an operand that a candidate produces is that of all its outputs. -/
theorem Operator.eval?_of_isCandidate {op : Operator} (candidate : op.isCandidate = true)
    {given : Bool} {values : OperandId → Option V} (a b : OperandId) :
    op.eval? I given values a = op.eval? I given values b := by
  obtain ⟨inlinable, literal⟩ := op.isCandidate_iff.1 candidate
  unfold eval?
  cases kind : op.kind with
  | input | output | expression | other => simp [kind, Kind.isInlinable] at inlinable
  | constant =>
    dsimp only
    cases held : op.value with
    | error e => rfl
    | ok parameter =>
      obtain ⟨l, rfl⟩ := literal kind parameter held
      rfl
  | _ => rfl

namespace Fusion

variable {given : OperatorId → Bool}

theorem eval?_expression {f : Fusion} {number : Nat} {text : String} {op : Operator}
    {parsed : Formula Nat} (read : Formula.parse text = .ok parsed)
    (values : OperandId → Option V) (a : OperandId) :
    (f.expression number text op).eval? I false values a =
      parsed.eval? I (some ∘ I.literal) fun index => op.inputs[index]?.bind values := by
  have formula : (f.expression number text op).formula? = some parsed := by
    simp [Operator.formula?, Parameter.string?, read, Except.toOption]
  rw [Operator.eval?]
  simp only [expression] at formula ⊢
  rw [formula]
  rfl

namespace Step

variable {f : Fusion} {g h : Graph} {id : OperatorId} {number : Nat} {op : Operator}
  {fused : FusedFormula}

/-- The new expression has the value of the operator in whose place it stands, as long as the operands
that it is computed from keep their values. -/
theorem eval?_of_lower (unit : ∀ v, I.call "mul" [v, I.literal (.int 1)] = v)
    (step : f.Step g id number op fused h) (candidate : op.isCandidate = true) (agrees : g.Agrees)
    (determined : g.Determined) (small : g.operands.length < 2 ^ 64) (fresh : given id = false)
    {a : OperandId} (producer : g.producer a = .ok id) {value : V}
    (found : g.value? I given a = some value) {values : OperandId → Option V}
    (lower : ∀ b, g.height b < g.height a → ∀ v, g.value? I given b = some v → values b = some v) :
    (f.expression number fused.text { op with inputs := fused.inputs }).eval? I (given id) values a =
      some value := by
  obtain ⟨output, mem, -, built⟩ := step.formula
  have producer' : g.producer output = .ok id := agrees.producer ⟨op, step.found, mem⟩
  have source : g.source output = .ok op :=
    (g.source_eq_ok_iff output op).2 ⟨id, producer', step.found⟩
  have source' : g.source a = .ok op := (g.source_eq_ok_iff a op).2 ⟨id, producer, step.found⟩
  have found' : g.value? I given output = some value := by
    rw [determined.value?_eq producer' step.found, op.eval?_of_isCandidate candidate output a,
      ← determined.value?_eq producer step.found]
    exact found
  obtain ⟨formula, expanded, evaluated⟩ := Graph.exists_parse_eval? (I := I) small built
  have below : ∀ s ∈ formula.slots, g.height s < g.height a := by
    intro s slot
    have feeds := Graph.transGen_feeds_of_isCandidate candidate source expanded slot
    -- What feeds the first output feeds every output.
    obtain ⟨c, path, op', sourced, input⟩ := Relation.TransGen.tail'_iff.1 feeds
    obtain rfl := Except.ok.inj (source.symm.trans sourced)
    exact determined.height_lt_of_transGen (Relation.TransGen.tail' path ⟨op, source', input⟩)
  have run := determined.eval?_expandWithin unit expanded found'
  obtain ⟨parsed, read, result⟩ := evaluated _ values value run fun s slot => lower s (below s slot)
  rw [fresh, eval?_expression read]
  exact result

/-- A step keeps the value of every operand. -/
theorem value?_eq_some (unit : ∀ v, I.call "mul" [v, I.literal (.int 1)] = v)
    (step : f.Step g id number op fused h) (candidate : op.isCandidate = true) (agrees : g.Agrees)
    (determined : g.Determined) (small : g.operands.length < 2 ^ 64) (fresh : given id = false)
    {a : OperandId} {value : V} (found : g.value? I given a = some value) :
    h.value? I given a = some value := by
  have determined' := step.determined candidate agrees determined
  induction height : g.height a using Nat.strongRecOn generalizing a value with
  | _ n ih =>
  subst height
  obtain ⟨p, op', producer, place⟩ := Graph.exists_operator_of_value? found
  have producer' : h.producer a = .ok p := (step.producer a).trans producer
  by_cases here : p = id
  · subst here
    rw [determined'.value?_eq producer' step.getElem?_operators_self]
    refine step.eval?_of_lower unit candidate agrees determined small fresh producer found ?_
    exact fun b lower v found => ih _ lower found rfl
  · have place' : h.operators[p.index]? = some op' := by
      rw [step.getElem?_operators_of_ne fun same => here (OperatorId.eq_of_index same)]
      exact place
    have source : g.source a = .ok op' := (g.source_eq_ok_iff a op').2 ⟨p, producer, place⟩
    rw [determined.value?_eq producer place] at found
    rw [determined'.value?_eq producer' place']
    refine Operator.eval?_mono (fun b input v found => ?_) found
    exact ih _ (determined.height_lt ⟨op', source, input⟩) found rfl

end Step

/-! ## Runs -/

/-- What a run keeps: links agree, values can be computed, expressions that were given stay
expressions, and operands keep their values. -/
structure Keeps (I : Interpretation V) (given : OperatorId → Bool) (g h : Graph) : Prop where
  agrees : h.Agrees
  determined : h.Determined
  length : h.operands.length = g.operands.length
  fresh : ∀ {p : OperatorId} {op : Operator}, h.operators[p.index]? = some op →
    op.kind ≠ .expression → given p = false
  value? : ∀ {a : OperandId} {value : V}, g.value? I given a = some value →
    h.value? I given a = some value

theorem Reaches.keeps (unit : ∀ v, I.call "mul" [v, I.literal (.int 1)] = v) {f : Fusion}
    {g h : Graph} {n : Nat} (reached : f.Reaches g n h) (agrees : g.Agrees)
    (determined : g.Determined) (small : g.operands.length < 2 ^ 64) :
    Keeps I g.isExpression g h := by
  induction reached with
  | start =>
    refine ⟨agrees, determined, rfl, fun found other => ?_, id⟩
    simp [Graph.isExpression, found, other]
  | @step n h k id _ last fused ih =>
    obtain ⟨op, _, candidate, step⟩ := exists_candidate_step last fused
    have fresh : g.isExpression id = false := by
      apply ih.fresh step.found
      intro kind
      have inlinable := (op.isCandidate_iff.1 candidate).1
      rw [kind] at inlinable
      cases inlinable
    refine ⟨step.agrees ih.agrees, step.determined candidate ih.agrees ih.determined,
      step.length.trans ih.length, fun {p op'} place other => ?_, fun value => ?_⟩
    · by_cases here : p.index = id.index
      · rw [here, step.getElem?_operators_self] at place
        obtain rfl := Option.some.inj place
        exact absurd rfl other
      · rw [step.getElem?_operators_of_ne here] at place
        exact ih.fresh place other
    · exact step.value?_eq_some unit candidate ih.agrees ih.determined (ih.length ▸ small) fresh
        (ih.value? value)

/-- Fusion keeps the meaning of every operand of a graph whose links the check accepts.  Whatever
functions, lists, literals and operators outside of formulas stand for, as long as a product with the
literal `1` is its other factor: values are given by recursion over producers before and after a run,
where the expressions that the run has written are evaluated from their texts, and an operand with a
value keeps it.  If all literal constants can be read, every operand has a value. -/
theorem value?_run (unit : ∀ v, I.call "mul" [v, I.literal (.int 1)] = v) (f : Fusion) {g : Graph}
    (links : g.verifyLinks = .ok ()) (determined : g.Determined)
    (small : g.operands.length < 2 ^ 64) :
    g.ValueRecursion I g.isExpression ∧ (f.run g).graph.ValueRecursion I g.isExpression ∧
      ∀ a : OperandId,
        (∀ value, g.value? I g.isExpression a = some value →
          (f.run g).graph.value? I g.isExpression a = some value) ∧
        (g.Readable → a.index < g.operands.length →
          ∃ value, g.value? I g.isExpression a = some value ∧
            (f.run g).graph.value? I g.isExpression a = some value) := by
  obtain ⟨n, reached⟩ := (f.ends_run g).exists_reaches
  have kept := reached.keeps unit (g.verifyLinks_eq_ok_iff.1 links) determined small
  refine ⟨determined.valueRecursion, kept.determined.valueRecursion, fun a => ⟨?_, ?_⟩⟩
  · intro value found
    exact kept.value? found
  · intro readable known
    obtain ⟨value, found⟩ := determined.exists_value? readable (fun _ fixed => fixed) known
    exact ⟨value, found, kept.value? found⟩

end Fusion

/-! ## An interpretation by integers -/

/-- Integers with their arithmetic; every value from outside is `-7`. -/
def Interpretation.integers : Interpretation Int where
  call
    | "abs", [v] => v.natAbs
    | "add", [v, w] => v + w
    | "sub", [v, w] => v - w
    | "mul", [v, w] => v * w
    | _, _ => 0
  list _ := 0
  literal
    | .int value => value.toInt
    | _ => 0
  outside _ _ := -7

theorem Interpretation.mul_one_integers (v : Int) :
    integers.call "mul" [v, integers.literal (.int 1)] = v := Int.mul_one v

theorem Fusion.value?_run_doubledAbs :
    (Fusion.run {} .doubledAbs).result = .ok 3 ∧ Graph.doubledAbs.verifyLinks = .ok () ∧
      Graph.doubledAbs.Determined ∧ Graph.doubledAbs.Readable ∧
      Graph.doubledAbs.value? .integers Graph.doubledAbs.isExpression ⟨3⟩ = some 14 ∧
      (Fusion.run {} .doubledAbs).graph.value? .integers Graph.doubledAbs.isExpression ⟨3⟩ =
        some 14 := by
  have determined := (Graph.wellFormed_of_validate Graph.built_doubledAbs.linked rfl).determined
  have readable : Graph.doubledAbs.Readable := by
    intro op mem l kind held
    simp only [Graph.doubledAbs, List.mem_cons, List.not_mem_nil, or_false] at mem
    rcases mem with rfl | rfl | rfl | rfl | rfl
    case inr.inl =>
      cases held
      exact ⟨_, Literal.read?_int 1⟩
    all_goals cases kind
  have factor : Graph.doubledAbs.value? .integers Graph.doubledAbs.isExpression ⟨1⟩ = some 1 := by
    rw [determined.value?_eq (p := ⟨1⟩) rfl rfl]
    exact congrArg (Option.map Interpretation.integers.literal) (Literal.read?_int 1)
  have summand : Graph.doubledAbs.value? .integers Graph.doubledAbs.isExpression ⟨2⟩ = some 7 := rfl
  have before : Graph.doubledAbs.value? .integers Graph.doubledAbs.isExpression ⟨3⟩ = some 14 := by
    rw [determined.value?_eq (p := ⟨3⟩) rfl rfl]
    show Option.map _ (List.mapM _ ([⟨2⟩, ⟨2⟩, ⟨1⟩] : List OperandId)) = _
    rw [(mapM_eq_some_iff _ _ [7, 7, 1]).2 (.cons summand (.cons summand (.cons factor .nil)))]
    rfl
  obtain ⟨-, -, values⟩ :=
    value?_run Interpretation.mul_one_integers {} (g := .doubledAbs) rfl determined (by decide)
  obtain ⟨value, found, after⟩ := (values ⟨3⟩).2 readable (by decide)
  obtain rfl : 14 = value := Option.some.inj (before.symm.trans found)
  exact ⟨rfl, rfl, determined, readable, before, after⟩

/-! ## A graph with crossed links -/

/-- Two constants, of which the second lists the output of the first in place of its own. -/
def Graph.crossedConstants : Graph where
  operators :=
    [{ kind := .constant, name := "one", outputs := [⟨0⟩]
       params := .singleton "value" (.literal (.int 1)) },
     { kind := .constant, name := "two", outputs := [⟨0⟩]
       params := .singleton "value" (.literal (.int 2)) }]
  operands := [⟨"a", some ⟨0⟩, []⟩, ⟨"b", some ⟨1⟩, []⟩]

theorem Graph.edited_crossedConstants : crossedConstants.Edited := by
  obtain ⟨g, pushed, modified⟩ : ∃ g,
      [{ kind := .constant, name := "one", outputs := [⟨0⟩]
         params := .singleton "value" (.literal (.int 1)) },
       { kind := .constant, name := "two", outputs := [⟨1⟩]
         params := .singleton "value" (.literal (.int 2)) }].foldlM
        (fun g op => (g.pushOperator op).map Prod.fst) (empty.pushOperands ["a", "b"]).1 = .ok g ∧
      g.modifyOperator ⟨1⟩ (fun op => { op with outputs := [⟨0⟩] }) = .ok crossedConstants :=
    ⟨_, rfl, rfl⟩
  exact ((Built.empty.pushOperands _).pushOperators pushed).edited.modifyOperator modified

theorem Graph.determined_crossedConstants : crossedConstants.Determined where
  input_known := by decide
  produced a known := by
    obtain ⟨_ | _ | index⟩ := a
    · exact ⟨_, rfl⟩
    · exact ⟨_, rfl⟩
    · exact absurd known (by simp [crossedConstants])
  acyclic := by
    have ordered : crossedConstants.evaluationOrder = .ok [⟨1⟩, ⟨0⟩] := rfl
    exact acyclic_of_evaluationOrder ordered
  arity := by decide
  valued op mem _ := by
    simp only [crossedConstants, List.mem_cons, List.not_mem_nil, or_false] at mem
    rcases mem with rfl | rfl <;> exact ⟨_, rfl⟩

/-- Without agreeing links an operand may change its value, though all values can be computed: the
second constant is fused into the formula of the output that it lists, and the operand that records it as
its producer gets the value of the first. -/
theorem Fusion.value?_run_ne_crossedConstants :
    Graph.crossedConstants.Edited ∧ Graph.crossedConstants.verifyLinks ≠ .ok () ∧
      Graph.crossedConstants.Determined ∧ Graph.crossedConstants.Readable ∧
      (∀ v, Interpretation.integers.call "mul" [v, Interpretation.integers.literal (.int 1)] = v) ∧
      (Fusion.run {} .crossedConstants).result = .ok 2 ∧
      Graph.crossedConstants.value? .integers Graph.crossedConstants.isExpression ⟨1⟩ = some 2 ∧
      (Fusion.run {} .crossedConstants).graph.value? .integers
        Graph.crossedConstants.isExpression ⟨1⟩ = some 1 := by
  have determined := Graph.determined_crossedConstants
  have parsed : Formula.parse "1" = .ok (.literal (.int 1)) :=
    (Literal.read?_eq_some_iff _ _).1 (Literal.read?_int 1)
  refine ⟨Graph.edited_crossedConstants, nofun, determined, ?_, Interpretation.mul_one_integers, rfl,
    ?_, ?_⟩
  · intro op mem l _ held
    simp only [Graph.crossedConstants, List.mem_cons, List.not_mem_nil, or_false] at mem
    rcases mem with rfl | rfl <;> cases held <;> exact ⟨_, Literal.read?_int _⟩
  · rw [determined.value?_eq (p := ⟨1⟩) rfl rfl]
    exact congrArg (Option.map Interpretation.integers.literal) (Literal.read?_int 2)
  · have fused : (Fusion.run {} .crossedConstants).graph.operators[1]? =
        some (Fusion.expression {} 0 "1" Graph.crossedConstants.operators[1]) := rfl
    rw [Graph.value?, Graph.valueWithin?_succ (p := ⟨1⟩) rfl fused]
    exact eval?_expression parsed _ _

end FormulaFusion
