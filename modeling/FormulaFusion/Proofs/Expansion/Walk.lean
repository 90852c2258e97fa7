import FormulaFusion.Proofs.Expansion.Stops
import FormulaFusion.Proofs.SyntaxTree

/-!
# The frontier of a formula is where a walk stops

The inputs of a fused formula are found by a walk from left to right over the operands that the formula
is made of.  It keeps a list of operands still to be visited (`Graph.Walk`).  At an operand that is
opaque or held back it stops; any other operand it replaces by the data inputs of its producer.  The
inputs are the operands where the walk stops, in the order of the first visit
(`Graph.inputs_eq_stops`).  So they are exactly the opaque and the held back ones among all that
the walk meets (`Graph.Meets`): none of these is written out below the top, and no other operand is an
input.
-/

namespace FormulaFusion

namespace Graph

/-! ## Where a walk stops -/

/-- A walk over a list of operands below the top of a formula, and the operands where it stops.  It goes
from left to right and visits what an operand is computed from before the operands behind it. -/
inductive Walk (g : Graph) (foldable : List String) : List OperandId → List OperandId → Prop
  | done : Walk g foldable [] []
  | stop {a : OperandId} {rest stops : List OperandId} : g.Opaque a ∨ g.HeldBack foldable a →
      Walk g foldable rest stops → Walk g foldable (a :: rest) (a :: stops)
  | expand {a : OperandId} {op : Operator} {rest stops : List OperandId} :
      ¬g.Opaque a → ¬g.HeldBack foldable a → g.source a = .ok op →
      Walk g foldable (op.dataInputs ++ rest) stops → Walk g foldable (a :: rest) stops

/-- A walk from the top of a formula, where an operand is written out unless it is opaque. -/
inductive WalkFrom (g : Graph) (foldable : List String) (a : OperandId) : List OperandId → Prop
  | stop : g.Opaque a → WalkFrom g foldable a [a]
  | expand {op : Operator} {stops : List OperandId} : ¬g.Opaque a → g.source a = .ok op →
      Walk g foldable op.dataInputs stops → WalkFrom g foldable a stops

/-- The operands that a walk over a list of operands meets. -/
inductive Meets (g : Graph) (foldable : List String) (agenda : List OperandId) : OperandId → Prop
  | start {b : OperandId} : b ∈ agenda → Meets g foldable agenda b
  | descend {a b : OperandId} {op : Operator} : Meets g foldable agenda a → ¬g.Opaque a →
      ¬g.HeldBack foldable a → g.source a = .ok op → b ∈ op.dataInputs → Meets g foldable agenda b

/-- The operands that a walk from the top of a formula meets below it. -/
def MeetsBelow (g : Graph) (foldable : List String) (a b : OperandId) : Prop :=
  ¬g.Opaque a ∧ ∃ op, g.source a = .ok op ∧ g.Meets foldable op.dataInputs b

variable {g : Graph} {foldable : List String}

/-! ## Walks -/

theorem Walk.unique {agenda stops stops' : List OperandId} (walk : g.Walk foldable agenda stops)
    (walk' : g.Walk foldable agenda stops') : stops = stops' := by
  induction walk generalizing stops' with
  | done =>
    cases walk'
    rfl
  | stop stopped _ ih =>
    cases walk' with
    | stop _ next => rw [ih next]
    | expand clear free => exact absurd stopped (not_or.2 ⟨clear, free⟩)
  | expand clear free source _ ih =>
    cases walk' with
    | stop stopped => exact absurd stopped (not_or.2 ⟨clear, free⟩)
    | expand _ _ source' next =>
      obtain rfl := Except.ok.inj (source.symm.trans source')
      exact ih next

theorem WalkFrom.unique {a : OperandId} {stops stops' : List OperandId}
    (walk : g.WalkFrom foldable a stops) (walk' : g.WalkFrom foldable a stops') : stops = stops' := by
  cases walk with
  | stop stopped =>
    cases walk' with
    | stop => rfl
    | expand clear => exact absurd stopped clear
  | expand clear source walk =>
    cases walk' with
    | stop stopped => exact absurd stopped clear
    | expand _ source' walk' =>
      obtain rfl := Except.ok.inj (source.symm.trans source')
      exact walk.unique walk'

theorem Meets.mono {agenda agenda' : List OperandId} (subset : ∀ a ∈ agenda, g.Meets foldable agenda' a)
    {b : OperandId} (meets : g.Meets foldable agenda b) : g.Meets foldable agenda' b := by
  induction meets with
  | start mem => exact subset _ mem
  | descend _ clear free source mem ih => exact .descend ih clear free source mem

theorem not_meets_nil (b : OperandId) : ¬g.Meets foldable [] b := by
  intro meets
  induction meets with
  | start mem => cases mem
  | descend _ _ _ _ _ ih => exact ih

/-- What a walk meets, it meets at its first operand, from there, or from the rest. -/
theorem Meets.cases_cons {a b : OperandId} {rest : List OperandId}
    (meets : g.Meets foldable (a :: rest) b) :
    b = a ∨ g.Meets foldable rest b ∨ ¬g.Opaque a ∧ ¬g.HeldBack foldable a ∧
      ∃ op, g.source a = .ok op ∧ g.Meets foldable op.dataInputs b := by
  induction meets with
  | start mem =>
    rcases List.mem_cons.1 mem with same | mem
    · exact .inl same
    · exact .inr (.inl (.start mem))
  | descend _ clear free source mem ih =>
    rcases ih with rfl | later | ⟨clear', free', op, source', meets⟩
    · exact .inr (.inr ⟨clear, free, _, source, .start mem⟩)
    · exact .inr (.inl (.descend later clear free source mem))
    · exact .inr (.inr ⟨clear', free', op, source', .descend meets clear free source mem⟩)

/-- A walk stops at what it meets that is opaque or held back. -/
theorem Walk.mem_stops_iff {agenda stops : List OperandId} (walk : g.Walk foldable agenda stops)
    (b : OperandId) :
    b ∈ stops ↔ g.Meets foldable agenda b ∧ (g.Opaque b ∨ g.HeldBack foldable b) := by
  induction walk with
  | done =>
    exact ⟨fun mem => absurd mem List.not_mem_nil, fun ⟨meets, _⟩ => absurd meets (not_meets_nil b)⟩
  | @stop a rest stops stopped _ ih =>
    rw [List.mem_cons, ih]
    constructor
    · rintro (rfl | ⟨meets, stops⟩)
      · exact ⟨.start List.mem_cons_self, stopped⟩
      · exact ⟨meets.mono fun c mem => .start (List.mem_cons_of_mem a mem), stops⟩
    · rintro ⟨meets, stops⟩
      rcases meets.cases_cons with same | later | ⟨clear, free, -⟩
      · exact .inl same
      · exact .inr ⟨later, stops⟩
      · exact absurd stopped (not_or.2 ⟨clear, free⟩)
  | @expand a op rest stops clear free source _ ih =>
    rw [ih]
    refine and_congr_left fun stops => ⟨fun meets => ?_, fun meets => ?_⟩
    · refine meets.mono fun c mem => ?_
      rcases List.mem_append.1 mem with input | later
      · exact .descend (.start List.mem_cons_self) clear free source input
      · exact .start (List.mem_cons_of_mem a later)
    · rcases meets.cases_cons with rfl | later | ⟨-, -, op', source', meets⟩
      · exact absurd stops (not_or.2 ⟨clear, free⟩)
      · exact later.mono fun c mem => .start (List.mem_append_right _ mem)
      · obtain rfl := Except.ok.inj (source.symm.trans source')
        exact meets.mono fun c mem => .start (List.mem_append_left _ mem)

theorem WalkFrom.mem_stops_iff {a : OperandId} {stops : List OperandId}
    (walk : g.WalkFrom foldable a stops) (b : OperandId) :
    b ∈ stops ↔ b = a ∧ g.Opaque a ∨
      g.MeetsBelow foldable a b ∧ (g.Opaque b ∨ g.HeldBack foldable b) := by
  cases walk with
  | stop stopped =>
    rw [List.mem_singleton]
    constructor
    · exact fun same => .inl ⟨same, stopped⟩
    · rintro (⟨same, -⟩ | ⟨⟨clear, -⟩, -⟩)
      · exact same
      · exact absurd stopped clear
  | expand clear source walk =>
    rw [walk.mem_stops_iff]
    constructor
    · exact fun ⟨meets, stops⟩ => .inr ⟨⟨clear, _, source, meets⟩, stops⟩
    · rintro (⟨-, stopped⟩ | ⟨⟨-, op, source', meets⟩, stops⟩)
      · exact absurd stopped clear
      · obtain rfl := Except.ok.inj (source.symm.trans source')
        exact ⟨meets, stops⟩

/-! ## Expansions follow the walk -/

/-- Putting walks from several operands in front of another one, if this is possible for each of
them. -/
theorem Walk.append_slotsOfAll {depth : Nat} {inputs : List OperandId}
    {args : List (Formula OperandId)}
    (each : ∀ (a : OperandId) (formula : Formula OperandId),
      g.expandWithin foldable depth true a = .ok formula → ∀ rest stops,
        g.Walk foldable rest stops → g.Walk foldable (a :: rest) (formula.slots ++ stops))
    (expanded : List.Forall₂ (fun a formula => g.expandWithin foldable depth true a = .ok formula)
      inputs args) {rest stops : List OperandId} (walk : g.Walk foldable rest stops) :
    g.Walk foldable (inputs ++ rest) (Formula.slotsOfAll args ++ stops) := by
  induction expanded with
  | nil => simpa using walk
  | cons first _ ih =>
    rw [Formula.slotsOfAll_cons, List.append_assoc, List.cons_append]
    exact each _ _ first _ _ ih

/-- One step of an expansion stops at the operand, which is then the only slot, or goes on with the
data inputs of its producer. -/
theorem Expands.stops_or_walks {depth : Nat} {nested : Bool} {a : OperandId}
    {formula : Formula OperandId} (expands : g.Expands foldable depth nested a formula)
    (each : ∀ (a : OperandId) (formula : Formula OperandId),
      g.expandWithin foldable depth true a = .ok formula → ∀ rest stops,
        g.Walk foldable rest stops → g.Walk foldable (a :: rest) (formula.slots ++ stops)) :
    (g.Opaque a ∨ nested = true ∧ g.HeldBack foldable a) ∧ formula.slots = [a] ∨
    ¬g.Opaque a ∧ (nested = true → ¬g.HeldBack foldable a) ∧ ∃ op, g.source a = .ok op ∧
      ∀ rest stops, g.Walk foldable rest stops →
        g.Walk foldable (op.dataInputs ++ rest) (formula.slots ++ stops) := by
  cases expands.goesOn with
  | stop stopped => exact .inl ⟨stopped, by rw [Formula.slots]⟩
  | literal clear source constant =>
    obtain ⟨clear, free⟩ := not_or.1 clear
    refine .inr ⟨clear, not_and.1 free, _, source, fun rest stops walk => ?_⟩
    rw [Formula.slots]
    simpa [Operator.dataInputs, constant] using walk
  | computed clear source _ _ inputs =>
    obtain ⟨clear, free⟩ := not_or.1 clear
    refine .inr ⟨clear, not_and.1 free, _, source, fun rest stops walk => ?_⟩
    rw [Formula.slots_ofKind]
    exact walk.append_slotsOfAll each inputs

/-- Below the top of a formula, the slots of an expansion are the operands where a walk from the operand
stops. -/
theorem walk_of_expandWithin {depth : Nat} {a : OperandId} {formula : Formula OperandId}
    (expanded : g.expandWithin foldable depth true a = .ok formula) {rest stops : List OperandId}
    (walk : g.Walk foldable rest stops) : g.Walk foldable (a :: rest) (formula.slots ++ stops) := by
  induction depth generalizing a formula rest stops with
  | zero => cases expanded
  | succ depth ih =>
    have expands := (expandWithin_succ_eq_ok_iff ..).1 expanded
    rcases expands.stops_or_walks fun _ _ expanded _ _ walk => ih expanded walk with
      ⟨stopped, slots⟩ | ⟨clear, free, op, source, walks⟩
    · rw [slots]
      exact .stop (stopped.imp_right And.right) walk
    · exact .expand clear (free rfl) source (walks rest stops walk)

/-- At the top of a formula, the slots of an expansion are the operands where the walk stops. -/
theorem walkFrom_of_expand {a : OperandId} {formula : Formula OperandId}
    (expanded : g.expand foldable a = .ok formula) : g.WalkFrom foldable a formula.slots := by
  have expands := (expandWithin_succ_eq_ok_iff ..).1 expanded
  rcases expands.stops_or_walks fun _ _ expanded _ _ walk => walk_of_expandWithin expanded walk with
    ⟨stopped, slots⟩ | ⟨clear, -, op, source, walks⟩
  · rw [slots]
    exact .stop (stopped.resolve_right fun below => Bool.false_ne_true below.1)
  · have walk := walks [] [] .done
    rw [List.append_nil, List.append_nil] at walk
    exact .expand clear source walk

/-- The walk from an operand that has a fused formula comes to an end in one way.  The slots of the
formula are the operands where it stops, and the inputs are these operands, each once, in the order of
the first visit.  What the walk meets below the top is an input exactly if it is opaque or held back,
and the operand at the top exactly if it is opaque. -/
theorem inputs_eq_stops {a : OperandId} {fused : FusedFormula}
    (built : g.fusedFormula foldable a = .ok fused) :
    ∃ stops, (∀ stops', g.WalkFrom foldable a stops' ↔ stops' = stops) ∧
      (g.expand foldable a).map Formula.slots = .ok stops ∧
      fused.inputs = stops.eraseDups ∧ fused.inputs.Nodup ∧
      ∀ b, b ∈ fused.inputs ↔ b = a ∧ g.Opaque a ∨
        g.MeetsBelow foldable a b ∧ (g.Opaque b ∨ g.HeldBack foldable b) := by
  obtain ⟨formula, expanded, -, inputs⟩ := exists_expand_of_fusedFormula built
  have walk := walkFrom_of_expand expanded
  refine ⟨formula.slots, fun stops' => ⟨fun walk' => walk'.unique walk, fun same => same ▸ walk⟩,
    by rw [expanded, map_ok], inputs, inputs ▸ formula.nodup_eraseDups_slots, fun b => ?_⟩
  rw [inputs, List.mem_eraseDups, walk.mem_stops_iff]

/-! ## A formula with a shared value -/

/-- The difference between a product with a sine and the sine itself. -/
def sharedSine : Graph where
  operators :=
    [{ kind := .input, name := "in", outputs := [⟨0⟩, ⟨1⟩] },
     { kind := .constant, name := "one", outputs := [⟨2⟩]
       params := .singleton "value" (.literal (.int 1)) },
     { kind := .unary .sin, name := "sin", inputs := [⟨0⟩], outputs := [⟨3⟩] },
     { kind := .binary .mul, name := "mul", inputs := [⟨3⟩, ⟨1⟩], outputs := [⟨4⟩] },
     { kind := .rsub, name := "rsub", inputs := [⟨3⟩, ⟨4⟩, ⟨2⟩], outputs := [⟨5⟩] },
     { kind := .output, name := "out", inputs := [⟨5⟩] }]
  operands :=
    [⟨"x", some ⟨0⟩, [⟨2⟩]⟩, ⟨"w", some ⟨0⟩, [⟨3⟩]⟩, ⟨"alpha", some ⟨1⟩, [⟨4⟩]⟩,
     ⟨"s", some ⟨2⟩, [⟨3⟩, ⟨4⟩]⟩, ⟨"p", some ⟨3⟩, [⟨4⟩]⟩, ⟨"d", some ⟨4⟩, [⟨5⟩]⟩]

theorem inputs_eq_stops_sharedSine :
    ∃ fused, sharedSine.fusedFormula [] ⟨5⟩ = .ok fused ∧ fused.inputs = [⟨3⟩, ⟨1⟩] ∧
      sharedSine.WalkFrom [] ⟨5⟩ [⟨3⟩, ⟨1⟩, ⟨3⟩] ∧ sharedSine.MeetsBelow [] ⟨5⟩ ⟨3⟩ ∧
      (sharedSine.Opaque ⟨3⟩ ∨ sharedSine.HeldBack [] ⟨3⟩) := by
  obtain ⟨fused, built, shape⟩ : ∃ fused, sharedSine.fusedFormula [] ⟨5⟩ = .ok fused ∧
      fused.inputs = [⟨3⟩, ⟨1⟩] := ⟨_, rfl, rfl⟩
  obtain ⟨stops, walk, slots, -, -, mem⟩ := inputs_eq_stops built
  obtain rfl : [⟨3⟩, ⟨1⟩, ⟨3⟩] = stops := Except.ok.inj slots
  refine ⟨fused, built, shape, (walk _).2 rfl, ?_⟩
  have met := (mem ⟨3⟩).1 (by rw [shape]; exact List.mem_cons_self)
  exact met.resolve_left fun top => absurd top.1 (by decide)

end Graph

end FormulaFusion
