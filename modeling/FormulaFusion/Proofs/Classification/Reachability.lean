import Mathlib.Data.List.Chain
import FormulaFusion.Proofs.Classification

/-!
# Classification as reachability

Each classification asks for a path backwards from an operand.  An operand is not computed from
constants alone exactly if some path leads from it to a graph input without meeting a name that counts
as constant (`Graph.InputPath`, `Graph.Grounded.fromConstants_eq_false_iff_inputPath`).  Its value may be
a tensor exactly if it can be traced, through the inputs from which an operator inherits this
(`Graph.InheritsFrom`), to an operand of which nothing else is known (`Graph.Opaque`,
`Graph.Edited.tensorValued_eq_true_iff_reaches`).

Paths and answers unfold alike, one step at a time: `exists_inputPath_iff` beside
`fromConstantsWithin_succ_eq_false_iff`, and the head of a chain beside
`tensorValuedWithin_succ_eq_true_iff`.  The height of the operand carries both inductions.
-/

open Relation

namespace FormulaFusion

namespace Graph

variable {g : Graph}

/-! ## Paths to graph inputs -/

/-- The operand's name is not among the given ones. -/
def Unnamed (g : Graph) (foldable : List String) (a : OperandId) : Prop :=
  ∀ operand, g.operand a = .ok operand → operand.name ∉ foldable

/-- The operand enters the graph from outside. -/
def IsInput (g : Graph) (a : OperandId) : Prop := ∃ op, g.source a = .ok op ∧ op.kind = .input

/-- A path backwards from `a` to a graph input on which no operand has one of the given names. -/
structure InputPath (g : Graph) (foldable : List String) (a : OperandId) (path : List OperandId) :
    Prop where
  first : path.head? = some a
  backward : path.IsChain fun b c => g.Feeds c b
  unnamed : ∀ b ∈ path, g.Unnamed foldable b
  last : ∃ b, path.getLast? = some b ∧ g.IsInput b

theorem InputPath.mono {foldable foldable' : List String} {a : OperandId} {path : List OperandId}
    (more : foldable ⊆ foldable') (found : g.InputPath foldable' a path) :
    g.InputPath foldable a path where
  first := found.first
  backward := found.backward
  unnamed b mem operand known named := found.unnamed b mem operand known (more named)
  last := found.last

/-- A path ends where it starts or goes on from an input of the producer. -/
theorem exists_inputPath_iff (g : Graph) (foldable : List String) (a : OperandId) :
    (∃ path, g.InputPath foldable a path) ↔ g.Unnamed foldable a ∧
      (g.IsInput a ∨ ∃ b, g.Feeds b a ∧ ∃ path, g.InputPath foldable b path) := by
  constructor
  · rintro ⟨path, first, backward, unnamed, b, last, input⟩
    obtain ⟨rest, rfl⟩ := List.head?_eq_some_iff.1 first
    refine ⟨unnamed a List.mem_cons_self, ?_⟩
    cases rest with
    | nil =>
      obtain rfl : a = b := by simpa using last
      exact .inl input
    | cons c rest =>
      obtain ⟨feeds, backward⟩ := List.isChain_cons_cons.1 backward
      refine .inr ⟨c, feeds, c :: rest, rfl, backward, ?_, b, by simpa using last, input⟩
      exact fun d mem => unnamed d (List.mem_cons_of_mem a mem)
  · rintro ⟨unnamed, input | ⟨b, feeds, path, first, backward, others, last⟩⟩
    · exact ⟨[a], rfl, .singleton a, by simpa using unnamed, a, rfl, input⟩
    · obtain ⟨rest, rfl⟩ := List.head?_eq_some_iff.1 first
      refine ⟨a :: b :: rest, rfl, .cons_cons feeds backward, ?_, by simpa using last⟩
      exact List.forall_mem_cons.2 ⟨unnamed, others⟩

/-- No comes from a graph input, or from an input of the producer. -/
theorem Grounded.fromConstantsWithin_succ_eq_false_iff (grounded : g.Grounded)
    (foldable : List String) {depth : Nat} {a : OperandId} (known : a.index < g.operands.length)
    (enough : g.height a ≤ depth) :
    g.fromConstantsWithin foldable (depth + 1) a = .ok false ↔ g.Unnamed foldable a ∧
      (g.IsInput a ∨ ∃ b, g.Feeds b a ∧ g.fromConstantsWithin foldable depth b = .ok false) := by
  obtain ⟨op, source⟩ := grounded.produced a known
  have operand := (g.operand_eq_ok_iff a _).2 (List.getElem?_eq_getElem known)
  have unnamed : g.Unnamed foldable a ↔ g.operands[a.index].name ∉ foldable := by
    simp [Unnamed, operand]
  have input : g.IsInput a ↔ op.kind = .input := by simp [IsInput, source]
  have feeds : ∀ b, g.Feeds b a ↔ b ∈ op.inputs := by simp [Feeds, source]
  have answered : ∀ b ∈ op.inputs, ∃ answer,
      g.fromConstantsWithin foldable depth b = .ok answer := by
    intro b mem
    have lower := grounded.height_lt ((feeds b).2 mem)
    exact grounded.exists_fromConstantsWithin foldable (grounded.known_of_feeds ((feeds b).2 mem))
      (by omega)
  simp only [fromConstantsWithin, operand, source, bind_ok, unnamed, input, feeds]
  split_ifs with named kind
  · simp [named]
  · simp [named, kind]
  · simpa [named, kind] using allM_eq_false_iff _ _ answered

theorem Grounded.fromConstantsWithin_eq_false_iff (grounded : g.Grounded) (foldable : List String)
    {depth : Nat} {a : OperandId} (known : a.index < g.operands.length)
    (enough : g.height a < depth) :
    g.fromConstantsWithin foldable depth a = .ok false ↔ ∃ path, g.InputPath foldable a path := by
  induction depth generalizing a with
  | zero => omega
  | succ depth ih =>
    rw [grounded.fromConstantsWithin_succ_eq_false_iff foldable known (by omega),
      exists_inputPath_iff]
    refine and_congr_right fun _ => or_congr_right (exists_congr fun b => ?_)
    refine and_congr_right fun feeds => ih (grounded.known_of_feeds feeds) ?_
    have lower := grounded.height_lt feeds
    omega

/-- In a grounded graph it is always known whether an operand is computed from constants alone.  It is
not, exactly if a path backwards leads from it to a graph input and meets no name that counts as
constant.  So whatever counts as constant does so with more names too. -/
theorem Grounded.fromConstants_eq_false_iff_inputPath (grounded : g.Grounded)
    (foldable : List String) {a : OperandId} (known : a.index < g.operands.length) :
    (∃ answer, g.fromConstants foldable a = .ok answer) ∧
    (g.fromConstants foldable a = .ok false ↔ ∃ path, g.InputPath foldable a path) ∧
    ∀ foldable', foldable ⊆ foldable' → g.fromConstants foldable a = .ok true →
      g.fromConstants foldable' a = .ok true := by
  have enough := (grounded.acyclic.height_lt_length known).trans (Nat.lt_succ_self _)
  have path := fun foldable => grounded.fromConstantsWithin_eq_false_iff foldable known enough
  refine ⟨grounded.exists_fromConstants foldable known, path foldable, ?_⟩
  intro foldable' more constant
  obtain ⟨answer, constant'⟩ := grounded.exists_fromConstants foldable' known
  cases answer with
  | true => exact constant'
  | false =>
    obtain ⟨found, inputPath⟩ := (path foldable').1 constant'
    have denied := (path foldable).2 ⟨found, inputPath.mono more⟩
    cases denied.symm.trans constant

/-! ## Chains to opaque operands -/

/-- The value of `a` is a tensor if that of `b` is: casts and functions of one argument inherit this
from their first input, functions of two arguments and connectives from the first two, sums and
differences from the first three. -/
inductive InheritsFrom (g : Graph) (a b : OperandId) : Prop
  | first {op : Operator} : g.source a = .ok op →
      op.kind = .numToTensor ∨ op.kind = .int ∨ op.kind = .cast ∨ op.kind = .detach ∨
        (∃ f, op.kind = .unary f) →
      op.inputs[0]? = some b → InheritsFrom g a b
  | firstTwo {op : Operator} {index : Nat} : g.source a = .ok op →
      (∃ f, op.kind = .binary f) ∨ (∃ c, op.kind = .logical c) →
      index < 2 → op.inputs[index]? = some b → InheritsFrom g a b
  | firstThree {op : Operator} {index : Nat} : g.source a = .ok op →
      op.kind = .add ∨ op.kind = .sub ∨ op.kind = .rsub →
      index < 3 → op.inputs[index]? = some b → InheritsFrom g a b

theorem inheritsFrom_iff {a : OperandId} {op : Operator} (source : g.source a = .ok op)
    (b : OperandId) :
    g.InheritsFrom a b ↔ ∃ index ∈ op.kind.inherited, op.input index = .ok b := by
  simp only [Operator.input_eq_ok_iff]
  constructor
  · rintro (⟨source', kind, input⟩ | ⟨source', kind, below, input⟩ | ⟨source', kind, below, input⟩)
    all_goals
      obtain rfl := Except.ok.inj (source.symm.trans source')
      refine ⟨_, ?_, input⟩
    · rcases kind with kind | kind | kind | kind | ⟨f, kind⟩ <;> simp [kind, Kind.inherited]
    · rcases kind with ⟨f, kind⟩ | ⟨c, kind⟩ <;> simp [kind, Kind.inherited] <;> omega
    · rcases kind with kind | kind | kind <;> simp [kind, Kind.inherited] <;> omega
  · rintro ⟨index, inherited, input⟩
    cases kind : op.kind with
    | numToTensor | int | cast | detach | unary f =>
      obtain rfl : index = 0 := by simpa [kind, Kind.inherited] using inherited
      exact .first source (by simp [kind]) input
    | binary _ | logical _ =>
      have below : index < 2 := by
        simp [kind, Kind.inherited] at inherited
        omega
      exact .firstTwo source (by simp [kind]) below input
    | add | sub | rsub =>
      have below : index < 3 := by
        simp [kind, Kind.inherited] at inherited
        omega
      exact .firstThree source (by simp [kind]) below input
    | _ => simp [kind, Kind.inherited] at inherited

/-- Yes comes from an opaque operand, or from one that the operand inherits from. -/
theorem Determined.tensorValuedWithin_succ_eq_true_iff (determined : g.Determined) {depth : Nat}
    {a : OperandId} (known : a.index < g.operands.length) (enough : g.height a ≤ depth) :
    g.tensorValuedWithin (depth + 1) a = .ok true ↔
      g.Opaque a ∨ ∃ b, g.InheritsFrom a b ∧ g.tensorValuedWithin depth b = .ok true := by
  obtain ⟨op, source⟩ := determined.produced a known
  rw [tensorValuedWithin, source, bind_ok]
  simp only [inheritsFrom_iff source]
  split
  case h_1 constant =>
    obtain ⟨value, found⟩ := determined.valued op (mem_operators_of_source source) constant
    have other : value.isLiteral = false ↔ ∀ literal, value ≠ .literal literal := by
      rw [← Bool.not_eq_true, value.isLiteral_iff, not_exists]
    simp [opaque_iff source, constant, found, Kind.inherited, other]
  case h_6 constant input output expression unknown =>
    have answered : ∀ index ∈ op.kind.inherited, ∃ answer,
        (op.input index).bind (g.tensorValuedWithin depth) = .ok answer := by
      intro index inherited
      obtain ⟨b, found, feeds⟩ := determined.exists_inherited source inherited
      have lower := determined.height_lt feeds
      rw [found, bind_ok]
      exact determined.exists_tensorValuedWithin (determined.known_of_feeds feeds) (by omega)
    have elsewhere : ¬g.Opaque a := by
      rw [opaque_iff source]
      rintro (kind | kind | kind | ⟨name, kind⟩ | ⟨kind, -⟩)
      exacts [input kind, output kind, expression kind, unknown name kind, constant kind]
    rw [anyM_eq_true_iff _ _ answered, or_iff_right elsewhere]
    simp only [bind_eq_ok_iff]
    constructor
    · rintro ⟨index, inherited, b, found, tensor⟩
      exact ⟨b, ⟨index, inherited, found⟩, tensor⟩
    · rintro ⟨b, ⟨index, inherited, found⟩, tensor⟩
      exact ⟨index, inherited, b, found, tensor⟩
  all_goals simp [opaque_iff source, *]

theorem Determined.tensorValuedWithin_eq_true_iff (determined : g.Determined) {depth : Nat}
    {a : OperandId} (known : a.index < g.operands.length) (enough : g.height a < depth) :
    g.tensorValuedWithin depth a = .ok true ↔
      ∃ b, ReflTransGen g.InheritsFrom a b ∧ g.Opaque b := by
  induction depth generalizing a with
  | zero => omega
  | succ depth ih =>
    rw [determined.tensorValuedWithin_succ_eq_true_iff known (by omega)]
    have lower : ∀ {b}, g.InheritsFrom a b → (g.tensorValuedWithin depth b = .ok true ↔
        ∃ c, ReflTransGen g.InheritsFrom b c ∧ g.Opaque c) := by
      intro b inherits
      obtain ⟨op, source⟩ := determined.produced a known
      obtain ⟨index, -, input⟩ := (inheritsFrom_iff source b).1 inherits
      have feeds : g.Feeds b a := ⟨op, source, Operator.mem_inputs_of_input input⟩
      have lower := determined.height_lt feeds
      exact ih (determined.known_of_feeds feeds) (by omega)
    constructor
    · rintro (origin | ⟨b, inherits, tensor⟩)
      · exact ⟨a, .refl, origin⟩
      · obtain ⟨c, reaches, origin⟩ := (lower inherits).1 tensor
        exact ⟨c, .head inherits reaches, origin⟩
    · rintro ⟨c, reaches, origin⟩
      rcases reaches.cases_head with rfl | ⟨b, inherits, reaches⟩
      · exact .inl origin
      · exact .inr ⟨b, inherits, (lower inherits).2 ⟨c, reaches, origin⟩⟩

/-- Sizes, lists and extracted scalars are no tensors and inherit from nothing. -/
theorem not_reaches_of_scalar {a : OperandId} {op : Operator} (source : g.source a = .ok op)
    (scalar : op.kind = .size ∨ op.kind = .listConstruct ∨ op.kind = .scalarImplicit) :
    ¬∃ b, ReflTransGen g.InheritsFrom a b ∧ g.Opaque b := by
  rintro ⟨b, reaches, origin⟩
  rcases reaches.cases_head with rfl | ⟨c, inherits, -⟩
  · rcases scalar with kind | kind | kind <;> simp [opaque_iff source, kind] at origin
  · obtain ⟨index, inherited, -⟩ := (inheritsFrom_iff source c).1 inherits
    rcases scalar with kind | kind | kind <;> simp [kind, Kind.inherited] at inherited

/-- In a graph that validation accepts it is always known whether the value of an operand may be a
tensor.  It may, exactly if a chain of inheritance leads from the operand to an opaque one: one that
enters or leaves the graph, comes from an expression or an unknown operator, or is a constant without a
literal value.  No such chain passes through a size, a list or an extracted scalar. -/
theorem Edited.tensorValued_eq_true_iff_reaches (edited : g.Edited) (valid : g.validate = .ok ())
    {a : OperandId} (known : a.index < g.operands.length) :
    (∃ answer, g.tensorValued a = .ok answer) ∧
    (g.tensorValued a = .ok true ↔ ∃ b, ReflTransGen g.InheritsFrom a b ∧ g.Opaque b) ∧
    ∀ b op, g.source b = .ok op →
      op.kind = .size ∨ op.kind = .listConstruct ∨ op.kind = .scalarImplicit →
      ¬∃ c, ReflTransGen g.InheritsFrom b c ∧ g.Opaque c := by
  have determined := edited.determined_of_validate valid
  have enough := (determined.acyclic.height_lt_length known).trans (Nat.lt_succ_self _)
  exact ⟨determined.exists_tensorValued known,
    determined.tensorValuedWithin_eq_true_iff known enough, fun _ _ => not_reaches_of_scalar⟩

/-! ## A shape and a weight -/

/-- The length of an input, as an integer, minus zero scaled by a weight times the length. -/
def offsetLength : Graph where
  operators :=
    [{ kind := .input, name := "in", outputs := [⟨0⟩] },
     { kind := .constant, name := "zero", outputs := [⟨1⟩]
       params := .singleton "value" (.literal (.int 0)) },
     { kind := .size, name := "size", inputs := [⟨0⟩, ⟨1⟩], outputs := [⟨2⟩] },
     { kind := .constant, name := "weight", outputs := [⟨3⟩]
       params := .singleton "value" .tensor },
     { kind := .binary .mul, name := "mul", inputs := [⟨2⟩, ⟨3⟩], outputs := [⟨4⟩] },
     { kind := .int, name := "int", inputs := [⟨2⟩], outputs := [⟨5⟩] },
     { kind := .sub, name := "sub", inputs := [⟨5⟩, ⟨1⟩, ⟨4⟩], outputs := [⟨6⟩] }]
  operands :=
    [⟨"x", some ⟨0⟩, [⟨2⟩]⟩, ⟨"dim", some ⟨1⟩, [⟨2⟩, ⟨6⟩]⟩, ⟨"n", some ⟨2⟩, [⟨4⟩, ⟨5⟩]⟩,
     ⟨"w", some ⟨3⟩, [⟨4⟩]⟩, ⟨"s", some ⟨4⟩, [⟨6⟩]⟩, ⟨"i", some ⟨5⟩, [⟨6⟩]⟩, ⟨"d", some ⟨6⟩, []⟩]

theorem edited_offsetLength : offsetLength.Edited := by
  have run : offsetLength.operators.foldlM (fun g op => (g.pushOperator op).map Prod.fst)
      (empty.pushOperands ["x", "dim", "n", "w", "s", "i", "d"]).1 = .ok offsetLength := rfl
  exact ((Built.empty.pushOperands _).pushOperators run).edited

theorem Grounded.fromConstants_eq_false_iff_inputPath_offsetLength :
    offsetLength.Grounded ∧ offsetLength.fromConstants [] ⟨6⟩ = .ok false ∧
      (∃ path, offsetLength.InputPath [] ⟨6⟩ path) ∧
      offsetLength.fromConstants ["n"] ⟨6⟩ = .ok true ∧
      (¬∃ path, offsetLength.InputPath ["n"] ⟨6⟩ path) ∧
      offsetLength.fromConstants ["x", "n"] ⟨6⟩ = .ok true := by
  have grounded := (edited_offsetLength.determined_of_validate rfl).toGrounded
  have known : (⟨6⟩ : OperandId).index < offsetLength.operands.length := by decide
  obtain ⟨-, path, -⟩ := fromConstants_eq_false_iff_inputPath grounded [] known
  obtain ⟨-, path', mono⟩ := fromConstants_eq_false_iff_inputPath grounded ["n"] known
  refine ⟨grounded, rfl, path.1 rfl, rfl, fun found => ?_, mono ["x", "n"] (by simp) rfl⟩
  cases path'.2 found

theorem Edited.tensorValued_eq_true_iff_reaches_offsetLength :
    ∃ h, offsetLength.modifyOperator ⟨0⟩ (fun op => { op with outputs := [] }) = .ok h ∧
      h.Edited ∧ h.validate = .ok () ∧
      h.tensorValued ⟨6⟩ = .ok true ∧ (∃ b, ReflTransGen h.InheritsFrom ⟨6⟩ b ∧ h.Opaque b) ∧
      h.tensorValued ⟨5⟩ = .ok false ∧
      ¬∃ b, ReflTransGen h.InheritsFrom ⟨5⟩ b ∧ h.Opaque b := by
  obtain ⟨h, modified, valid, yes, no, length⟩ : ∃ h, offsetLength.modifyOperator ⟨0⟩
      (fun op => { op with outputs := [] }) = .ok h ∧ h.validate = .ok () ∧
      h.tensorValued ⟨6⟩ = .ok true ∧ h.tensorValued ⟨5⟩ = .ok false ∧ h.operands.length = 7 :=
    ⟨_, rfl, rfl, rfl, rfl, rfl⟩
  have edited := edited_offsetLength.modifyOperator modified
  obtain ⟨-, sub, -⟩ := tensorValued_eq_true_iff_reaches edited valid
    (a := ⟨6⟩) (by rw [length]; decide)
  obtain ⟨-, int, -⟩ := tensorValued_eq_true_iff_reaches edited valid
    (a := ⟨5⟩) (by rw [length]; decide)
  refine ⟨h, modified, edited, valid, yes, sub.1 yes, no, fun reaches => ?_⟩
  cases no.symm.trans (int.2 reaches)

end Graph

end FormulaFusion
