import FormulaFusion.Proofs.Expansion

/-!
# Where an expansion stops

An expansion stops at an operand that is opaque, and below the top of a formula also at one that is held
back (`Graph.HeldBack`, `Graph.StopsAt`).  Any other operand is a literal or is written out in terms of
the data inputs of its producer (`Operator.dataInputs`).  So the steps of an expansion are those of
`Graph.GoesOn`, which says what holds of the operand and not how the expansion finds out.
-/

namespace FormulaFusion

/-- The inputs that the formula of an operator reads, in reading order. -/
def Operator.dataInputs (op : Operator) : List OperandId :=
  match op.kind, op.inputs with
  | .numToTensor, a :: _ | .cast, a :: _ | .detach, a :: _ | .scalarImplicit, a :: _
  | .int, a :: _ | .unary _, a :: _ => [a]
  | .size, a :: b :: _ | .binary _, a :: b :: _ | .logical _, a :: b :: _ => [a, b]
  | .add, a :: b :: c :: _ | .sub, a :: b :: c :: _ => [a, b, c]
  | .rsub, a :: b :: c :: _ => [b, c, a]
  | .listConstruct, inputs => inputs
  | _, _ => []

/-- What holds of an operator's inputs at the positions that a formula reads holds of its data
inputs. -/
theorem Operator.forall₂_dataInputs {α : Type} {R : OperandId → α → Prop} {op : Operator}
    {args : List α} (related : List.Forall₂ (fun index arg => ∃ input,
      op.input index = .ok input ∧ R input arg) op.dataPositions args) :
    List.Forall₂ R op.dataInputs args := by
  simp only [input_eq_ok_iff] at related
  unfold dataPositions at related
  unfold dataInputs
  generalize op.inputs = inputs at related ⊢
  cases kind : op.kind <;> rw [kind] at related
  case listConstruct => exact forall₂_of_range related
  case input | output | expression | constant | other => simpa using related
  case numToTensor | cast | detach | scalarImplicit | int | unary =>
    rcases inputs with - | ⟨a, rest⟩ <;> simp_all [List.forall₂_cons_left_iff]
  case size | binary | logical =>
    rcases inputs with - | ⟨a, - | ⟨b, rest⟩⟩ <;> simp_all [List.forall₂_cons_left_iff]
  case add | sub | rsub =>
    rcases inputs with - | ⟨a, - | ⟨b, - | ⟨c, rest⟩⟩⟩ <;> simp_all [List.forall₂_cons_left_iff]

namespace Graph

/-- The producer of an operand has several outputs, or a first output with several consumer entries. -/
def Branching (g : Graph) (a : OperandId) : Prop :=
  ∃ op, g.source a = .ok op ∧ (1 < op.outputs.length ∨ ∃ first operand,
    op.outputs[0]? = some first ∧ g.operands[first.index]? = some operand ∧
      1 < operand.consumers.length)

/-- An operand may be a tensor and is needed elsewhere or computed from constants alone. -/
def HeldBack (g : Graph) (foldable : List String) (a : OperandId) : Prop :=
  g.tensorValued a = .ok true ∧ (g.Branching a ∨ g.fromConstants foldable a = .ok true)

variable {g : Graph} {foldable : List String}

theorem isShared_eq_ok {op : Operator} {a : OperandId} {shared : Bool} (source : g.source a = .ok op)
    (decided : g.isShared op = .ok shared) : shared = true ↔ g.Branching a := by
  have branching : g.Branching a ↔ 1 < op.outputs.length ∨ ∃ first operand,
      op.outputs[0]? = some first ∧ g.operands[first.index]? = some operand ∧
        1 < operand.consumers.length := by
    constructor
    · rintro ⟨op', source', branching⟩
      obtain rfl := Except.ok.inj (source.symm.trans source')
      exact branching
    · exact fun branching => ⟨op, source, branching⟩
  rw [branching]
  unfold isShared at decided
  split_ifs at decided with several
  · obtain rfl := Except.ok.inj decided
    exact iff_of_true rfl (.inl several)
  · obtain ⟨first, output, rest⟩ := (bind_eq_ok_iff _ _ _).1 decided
    obtain ⟨consumers, found, rfl⟩ := (map_eq_ok_iff _ _ _).1 rest
    obtain ⟨operand, known, rfl⟩ := (map_eq_ok_iff _ _ _).1 found
    rw [Operator.output_eq_ok_iff] at output
    rw [operand_eq_ok_iff] at known
    simp [several, output, known]

theorem isHeldBack_eq_ok {op : Operator} {a : OperandId} {held : Bool} (source : g.source a = .ok op)
    (decided : g.isHeldBack foldable a op = .ok held) : held = true ↔ g.HeldBack foldable a := by
  unfold HeldBack
  obtain ⟨tensor, valued, rest⟩ := (bind_eq_ok_iff _ _ _).1 decided
  rw [valued]
  cases tensor with
  | false =>
    obtain rfl := Except.ok.inj rest
    simp
  | true =>
    obtain ⟨shared, decided', rest⟩ := (bind_eq_ok_iff _ _ _).1 rest
    have branching := isShared_eq_ok source decided'
    cases shared with
    | true =>
      obtain rfl := Except.ok.inj rest
      exact iff_of_true rfl ⟨rfl, .inl (branching.1 rfl)⟩
    | false =>
      have single : ¬g.Branching a := fun h => Bool.false_ne_true (branching.2 h)
      rw [if_neg Bool.false_ne_true] at rest
      simp [single, rest]

theorem opaque_of_not_isInlinable {op : Operator} {a : OperandId} (source : g.source a = .ok op)
    (kind : op.kind.isInlinable = false) : g.Opaque a := by
  refine ⟨op, source, ?_⟩
  cases h : op.kind <;> simp [h, Kind.isInlinable] at kind ⊢

theorem opaque_of_literal?_eq_none {op : Operator} {a : OperandId} {parameter : Parameter}
    (source : g.source a = .ok op) (constant : op.kind = .constant)
    (value : op.value = .ok parameter) (other : parameter.literal? = none) : g.Opaque a := by
  refine ⟨op, source, .inr (.inr (.inr (.inr ⟨constant, parameter, value, ?_⟩)))⟩
  rintro literal rfl
  simp [Parameter.literal?] at other

theorem not_opaque_of_isInlinable {op : Operator} {a : OperandId} (source : g.source a = .ok op)
    (kind : op.kind.isInlinable = true)
    (literal : op.kind = .constant → ∃ literal, op.value = .ok (.literal literal)) : ¬g.Opaque a := by
  rintro ⟨op', source', stands⟩
  obtain rfl := Except.ok.inj (source.symm.trans source')
  rcases stands with h | h | h | ⟨name, h⟩ | ⟨constant, value, found, other⟩
  iterate 4 simp [h, Kind.isInlinable] at kind
  obtain ⟨scalar, found'⟩ := literal constant
  exact other scalar (Except.ok.inj (found.symm.trans found'))

/-! ## Steps -/

/-- An expansion stops at the operand: it is opaque or, below the top of a formula, held back. -/
def StopsAt (g : Graph) (foldable : List String) (nested : Bool) (a : OperandId) : Prop :=
  g.Opaque a ∨ nested = true ∧ g.HeldBack foldable a

/-- How an operand is written, given how others are written below it. -/
inductive GoesOn (g : Graph) (foldable : List String) (below : OperandId → Formula OperandId → Prop)
    (nested : Bool) (a : OperandId) : Formula OperandId → Prop
  | stop (stopped : g.StopsAt foldable nested a) : GoesOn g foldable below nested a (.slot a)
  | literal {op : Operator} {value : Literal} (clear : ¬g.StopsAt foldable nested a)
      (source : g.source a = .ok op) (constant : op.kind = .constant)
      (found : op.value = .ok (.literal value)) : GoesOn g foldable below nested a (.literal value)
  | computed {op : Operator} {args : List (Formula OperandId)} (clear : ¬g.StopsAt foldable nested a)
      (source : g.source a = .ok op) (computed : op.kind ≠ .constant)
      (complete : args.length = op.dataPositions.length)
      (inputs : List.Forall₂ below op.dataInputs args) :
      GoesOn g foldable below nested a (.ofKind op.kind args)

/-- The questions that an expansion asks of a graph decide where it stops. -/
theorem Expands.goesOn {depth : Nat} {nested : Bool} {a : OperandId} {formula : Formula OperandId}
    (expands : g.Expands foldable depth nested a formula) :
    g.GoesOn foldable (fun b arg => g.expandWithin foldable depth true b = .ok arg) nested a
      formula := by
  have not_stopped : ∀ {op : Operator}, g.source a = .ok op →
      (nested = true → g.isHeldBack foldable a op = .ok false) → ¬g.Opaque a →
      ¬g.StopsAt foldable nested a := by
    rintro op source free clear (stands | ⟨below, held⟩)
    · exact clear stands
    · exact Bool.false_ne_true ((isHeldBack_eq_ok source (free below)).2 held)
  cases expands with
  | heldBack source below held => exact .stop (.inr ⟨below, (isHeldBack_eq_ok source held).1 rfl⟩)
  | outside source _ kind => exact .stop (.inl (opaque_of_not_isInlinable source kind))
  | tensor source _ constant value other =>
    exact .stop (.inl (opaque_of_literal?_eq_none source constant value other))
  | @literal op parameter value source free constant found scalar =>
    have held : op.value = .ok (.literal value) := by
      cases parameter <;> simp_all [Parameter.literal?]
    have clear := not_opaque_of_isInlinable source (by rw [constant]; rfl) fun _ => ⟨value, held⟩
    exact .literal (not_stopped source free clear) source constant held
  | computed source free kind computed args =>
    have clear := not_opaque_of_isInlinable source kind fun constant => absurd constant computed
    exact .computed (not_stopped source free clear) source computed args.length_eq.symm
      (Operator.forall₂_dataInputs args)

end Graph

end FormulaFusion
