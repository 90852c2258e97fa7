import FormulaFusion.Proofs.Formula.RoundTrip
import FormulaFusion.Proofs.Graph.WellFormed

/-!
# Values of operands

An `Interpretation` says what functions, lists and literals stand for, and gives a value to every
operand whose producer is never written as a formula.  `Formula.eval?` is the value of a formula and
`Graph.value?` the value of an operand, computed from the values of its producer's inputs.  Both may be
missing: the text of a string constant need not spell a literal.  In a determined graph `Graph.value?`
satisfies its recursion (`Determined.value?_eq`), and every operand has a value if all literal constants
can be read (`Determined.exists_value?`).
-/

universe u

namespace FormulaFusion

/-- What names, lists, literals, and operators outside of formulas stand for. -/
structure Interpretation (V : Type u) where
  call : String → List V → V
  list : List V → V
  literal : Literal → V
  /-- The value of an operand whose producer is not written as a formula, given the values of the
  producer's inputs. -/
  outside : OperandId → List V → V

variable {V : Type u}

/-! ## Lists of values -/

theorem mapM_eq_some_iff {α : Type} (f : α → Option V) (as : List α) (values : List V) :
    as.mapM f = some values ↔ List.Forall₂ (fun a value => f a = some value) as values := by
  induction as generalizing values with
  | nil => simp [eq_comm]
  | cons a rest ih =>
    rw [List.mapM_cons, List.forall₂_cons_left_iff]
    simp only [Option.bind_eq_bind, Option.bind_eq_some_iff, ih, Option.pure_def, Option.some_inj]
    constructor
    · rintro ⟨value, first, others, tail, rfl⟩
      exact ⟨value, others, first, tail, rfl⟩
    · rintro ⟨value, others, first, tail, rfl⟩
      exact ⟨value, first, others, tail, rfl⟩

theorem mapM_mono {α : Type} {f f' : α → Option V} {as : List α}
    (each : ∀ a ∈ as, ∀ value, f a = some value → f' a = some value) {values : List V}
    (run : as.mapM f = some values) : as.mapM f' = some values := by
  rw [mapM_eq_some_iff] at run ⊢
  induction run with
  | nil => exact .nil
  | @cons a value rest values first _ ih =>
    refine .cons (each a List.mem_cons_self value first) (ih fun a' mem => ?_)
    exact each a' (List.mem_cons_of_mem a mem)

theorem exists_mapM_eq_some {α : Type} {f : α → Option V} {as : List α}
    (each : ∀ a ∈ as, ∃ value, f a = some value) : ∃ values, as.mapM f = some values := by
  induction as with
  | nil => exact ⟨[], rfl⟩
  | cons a rest ih =>
    obtain ⟨value, first⟩ := each a List.mem_cons_self
    obtain ⟨values, others⟩ := ih fun a' mem => each a' (List.mem_cons_of_mem a mem)
    rw [mapM_eq_some_iff] at others
    exact ⟨value :: values, (mapM_eq_some_iff _ _ _).2 (.cons first others)⟩

/-! ## Values of formulas -/

namespace Formula

variable {σ τ : Type}

mutual

/-- The value of a formula, given the values of its literals and slots. -/
def eval? (I : Interpretation V) (literals : Literal → Option V) (slots : σ → Option V) :
    Formula σ → Option V
  | literal value => literals value
  | slot label => slots label
  | call name args => (evalAll? I literals slots args).map (I.call name)
  | list items => (evalAll? I literals slots items).map I.list

/-- The values of several formulas. -/
def evalAll? (I : Interpretation V) (literals : Literal → Option V) (slots : σ → Option V) :
    List (Formula σ) → Option (List V)
  | [] => some []
  | formula :: rest =>
    (formula.eval? I literals slots).bind fun value =>
      (evalAll? I literals slots rest).map (value :: ·)

end

theorem evalAll?_eq_mapM (I : Interpretation V) (literals : Literal → Option V)
    (slots : σ → Option V) (formulas : List (Formula σ)) :
    evalAll? I literals slots formulas = formulas.mapM (eval? I literals slots) := by
  induction formulas with
  | nil => rfl
  | cons formula rest ih =>
    rw [evalAll?, ih, List.mapM_cons]
    cases formula.eval? I literals slots with
    | none => rfl
    | some value => cases rest.mapM (eval? I literals slots) <;> rfl

/-- A formula with changed labels and literals has the value that it has when labels and literals
are changed as they are looked up. -/
theorem eval?_relabel_mapLiterals (I : Interpretation V) (literals : Literal → Option V)
    (slots : τ → Option V) (f : σ → τ) (r : Literal → Literal) (formula : Formula σ) :
    ((formula.relabel f).mapLiterals r).eval? I literals slots =
      formula.eval? I (literals ∘ r) (slots ∘ f) := by
  have all : ∀ args : List (Formula σ), (∀ arg ∈ args,
      ((arg.relabel f).mapLiterals r).eval? I literals slots =
        arg.eval? I (literals ∘ r) (slots ∘ f)) →
      evalAll? I literals slots (mapLiteralsAll r (relabelAll f args)) =
        evalAll? I (literals ∘ r) (slots ∘ f) args := by
    intro args each
    induction args with
    | nil => rfl
    | cons arg rest ih =>
      rw [relabelAll, mapLiteralsAll, evalAll?, evalAll?, each arg List.mem_cons_self,
        ih fun arg mem => each arg (List.mem_cons_of_mem _ mem)]
  induction formula using induction with
  | literal value =>
    rw [relabel, mapLiterals, eval?, eval?]
    rfl
  | slot label =>
    rw [relabel, mapLiterals, eval?, eval?]
    rfl
  | call name args ih => rw [relabel, mapLiterals, eval?, eval?, all args ih]
  | list items ih => rw [relabel, mapLiterals, eval?, eval?, all items ih]

/-- A formula keeps its value if its literals and slots do. -/
theorem eval?_mono {I : Interpretation V} {literals literals' : Literal → Option V}
    {slots slots' : σ → Option V} {formula : Formula σ}
    (same : ∀ l ∈ formula.literals, ∀ value, literals l = some value → literals' l = some value)
    (same' : ∀ s ∈ formula.slots, ∀ value, slots s = some value → slots' s = some value)
    {value : V} (run : formula.eval? I literals slots = some value) :
    formula.eval? I literals' slots' = some value := by
  induction formula using induction generalizing value with
  | literal l =>
    rw [eval?] at run ⊢
    exact same l (by rw [Formula.literals]; exact List.mem_cons_self) value run
  | slot s =>
    rw [eval?] at run ⊢
    exact same' s (by rw [Formula.slots]; exact List.mem_cons_self) value run
  | call name args ih =>
    rw [Formula.literals, literalsOfAll_eq_flatMap] at same
    rw [Formula.slots, slotsOfAll_eq_flatMap] at same'
    rw [eval?, evalAll?_eq_mapM, Option.map_eq_some_iff] at run ⊢
    obtain ⟨values, run, rfl⟩ := run
    refine ⟨values, mapM_mono (fun arg mem value => ?_) run, rfl⟩
    exact ih arg mem (fun l inside => same l (List.mem_flatMap.2 ⟨arg, mem, inside⟩))
      fun s inside => same' s (List.mem_flatMap.2 ⟨arg, mem, inside⟩)
  | list items ih =>
    rw [Formula.literals, literalsOfAll_eq_flatMap] at same
    rw [Formula.slots, slotsOfAll_eq_flatMap] at same'
    rw [eval?, evalAll?_eq_mapM, Option.map_eq_some_iff] at run ⊢
    obtain ⟨values, run, rfl⟩ := run
    refine ⟨values, mapM_mono (fun item mem value => ?_) run, rfl⟩
    exact ih item mem (fun l inside => same l (List.mem_flatMap.2 ⟨item, mem, inside⟩))
      fun s inside => same' s (List.mem_flatMap.2 ⟨item, mem, inside⟩)

/-- A formula with a value has literals with values. -/
theorem exists_of_mem_literals {I : Interpretation V} {literals : Literal → Option V}
    {slots : σ → Option V} {formula : Formula σ} {value : V}
    (run : formula.eval? I literals slots = some value) {l : Literal} (mem : l ∈ formula.literals) :
    ∃ value, literals l = some value := by
  have all : ∀ args : List (Formula σ), (∀ arg ∈ args, ∀ value,
      arg.eval? I literals slots = some value → l ∈ arg.literals → ∃ value, literals l = some value) →
      ∀ values, evalAll? I literals slots args = some values → l ∈ literalsOfAll args →
        ∃ value, literals l = some value := by
    intro args ih values run mem
    rw [literalsOfAll_eq_flatMap] at mem
    rw [evalAll?_eq_mapM, mapM_eq_some_iff] at run
    obtain ⟨arg, listed, inside⟩ := List.mem_flatMap.1 mem
    obtain ⟨value, -, evaluated⟩ := exists_right_of_forall₂ run listed
    exact ih arg listed value evaluated inside
  induction formula using induction generalizing value with
  | literal l' =>
    rw [Formula.literals, List.mem_singleton] at mem
    rw [eval?, ← mem] at run
    exact ⟨value, run⟩
  | slot label =>
    rw [Formula.literals] at mem
    cases mem
  | call name args ih =>
    rw [Formula.literals] at mem
    rw [eval?, Option.map_eq_some_iff] at run
    obtain ⟨values, run, -⟩ := run
    exact all args (fun arg listed value run inside => ih arg listed run inside) values run mem
  | list items ih =>
    rw [Formula.literals] at mem
    rw [eval?, Option.map_eq_some_iff] at run
    obtain ⟨values, run, -⟩ := run
    exact all items (fun item listed value run inside => ih item listed run inside) values run mem

end Formula

/-! ## Values of operands -/

/-- The literal that is read from the text of a literal, if the text spells one. -/
def Literal.read? (l : Literal) : Option Literal :=
  match Formula.parse (String.ofList l.text) with
  | .ok (.literal found) => some found
  | _ => Option.none

theorem Literal.read?_eq_some_iff (l found : Literal) :
    l.read? = some found ↔ Formula.parse (String.ofList l.text) = .ok (.literal found) := by
  unfold read?
  split <;> simp_all

namespace Interpretation

/-- The value of a literal constant: that of the literal which its text spells. -/
def spelled? (I : Interpretation V) (l : Literal) : Option V := l.read?.map I.literal

/-- The value of a called function or of a list, given the values of its operator's inputs. -/
def ofKind (I : Interpretation V) : Kind → List V → V
  | .listConstruct, values => I.list values
  | .add, [value, other, factor] => I.call "add" [value, I.call "mul" [other, factor]]
  | .sub, [value, other, factor] => I.call "sub" [value, I.call "mul" [other, factor]]
  | .rsub, [value, other, factor] => I.call "sub" [I.call "mul" [other, factor], value]
  | kind, values => I.call (kind.functionName?.getD "") values

end Interpretation

namespace Operator

/-- The formula of an expression operator. -/
def formula? (op : Operator) : Option (Formula Nat) :=
  ((op.params.get? "expr").bind Parameter.string?).bind fun text => (Formula.parse text).toOption

/-- The value of the operand `a` that `op` produces, given the values of the inputs.  Expressions
that are `given` are not looked into. -/
def eval? (I : Interpretation V) (given : Bool) (values : OperandId → Option V) (a : OperandId)
    (op : Operator) : Option V :=
  match op.kind with
  | .numToTensor | .cast | .detach | .scalarImplicit => op.inputs.head?.bind values
  | .constant =>
    match op.value with
    | .ok (.literal l) => I.spelled? l
    | .ok _ => (op.inputs.mapM values).map (I.outside a)
    | .error _ => none
  | .expression =>
    if given then (op.inputs.mapM values).map (I.outside a)
    else op.formula?.bind (Formula.eval? I (some ∘ I.literal) fun index =>
      op.inputs[index]?.bind values)
  | .input | .output | .other _ => (op.inputs.mapM values).map (I.outside a)
  | kind => (op.inputs.mapM values).map (I.ofKind kind)

/-- The value of an operand is kept if those of the inputs of its producer are. -/
theorem eval?_mono {I : Interpretation V} {given : Bool} {values values' : OperandId → Option V}
    {a : OperandId} {op : Operator}
    (same : ∀ b ∈ op.inputs, ∀ value, values b = some value → values' b = some value) {value : V}
    (run : op.eval? I given values a = some value) : op.eval? I given values' a = some value := by
  have listed : ∀ f : List V → V, (op.inputs.mapM values).map f = some value →
      (op.inputs.mapM values').map f = some value := by
    intro f listed
    rw [Option.map_eq_some_iff] at listed ⊢
    obtain ⟨inputs, listed, result⟩ := listed
    exact ⟨inputs, mapM_mono same listed, result⟩
  have first : op.inputs.head?.bind values = some value →
      op.inputs.head?.bind values' = some value := by
    intro first
    rw [Option.bind_eq_some_iff] at first ⊢
    obtain ⟨b, head, first⟩ := first
    exact ⟨b, head, same b (List.mem_of_head? head) value first⟩
  unfold eval? at run ⊢
  split at run
  case h_5 =>
    split at run
    · exact run
    · exact listed _ run
    · exact run
  case h_6 =>
    split_ifs at run ⊢
    · exact listed _ run
    · rw [Option.bind_eq_some_iff] at run ⊢
      obtain ⟨formula, read, run⟩ := run
      refine ⟨formula, read, Formula.eval?_mono (fun _ _ _ found => found) ?_ run⟩
      intro index _ value found
      rw [Option.bind_eq_some_iff] at found ⊢
      obtain ⟨b, input, found⟩ := found
      exact ⟨b, input, same b (List.mem_of_getElem? input) value found⟩
  all_goals first | exact first run | exact listed _ run

theorem eval?_congr {I : Interpretation V} {given : Bool} {values values' : OperandId → Option V}
    {a : OperandId} {op : Operator} (same : ∀ b ∈ op.inputs, values b = values' b) :
    op.eval? I given values a = op.eval? I given values' a := by
  refine Option.ext fun value => ⟨eval?_mono fun b mem => ?_, eval?_mono fun b mem => ?_⟩
  · rw [same b mem]
    exact fun _ found => found
  · rw [same b mem]
    exact fun _ found => found

/-- An operator has a value if its inputs have. -/
theorem exists_eval? {I : Interpretation V} {given : Bool} {values : OperandId → Option V}
    {op : Operator} (arity : op.kind.arity.accepts op.inputs.length = true)
    (valued : op.kind = .constant → ∃ parameter, op.value = .ok parameter)
    (readable : ∀ l, op.kind = .constant → op.value = .ok (.literal l) → ∃ found, l.read? = some found)
    (fixed : op.kind = .expression → given = true)
    (inputs : ∀ b ∈ op.inputs, ∃ value, values b = some value) (a : OperandId) :
    ∃ value, op.eval? I given values a = some value := by
  obtain ⟨all, listed⟩ := exists_mapM_eq_some inputs
  have first : 0 < op.inputs.length → ∃ value, op.inputs.head?.bind values = some value := by
    intro some_input
    obtain ⟨b, rest, split⟩ := List.exists_cons_of_ne_nil (List.ne_nil_of_length_pos some_input)
    obtain ⟨value, found⟩ := inputs b (by rw [split]; exact List.mem_cons_self)
    exact ⟨value, by rw [split]; exact found⟩
  unfold eval?
  cases kind : op.kind with
  | numToTensor | cast | detach | scalarImplicit =>
    apply first
    rw [kind] at arity
    simp only [Kind.arity, Arity.accepts, beq_iff_eq, decide_eq_true_eq] at arity
    omega
  | constant =>
    obtain ⟨parameter, found⟩ := valued kind
    dsimp only
    rw [found, listed]
    cases parameter with
    | literal l =>
      obtain ⟨read, spelled⟩ := readable l kind found
      dsimp only
      rw [Interpretation.spelled?, spelled]
      exact ⟨_, rfl⟩
    | _ => exact ⟨_, rfl⟩
  | expression =>
    dsimp only
    rw [if_pos (fixed kind), listed]
    exact ⟨_, rfl⟩
  | _ =>
    dsimp only
    rw [listed]
    exact ⟨_, rfl⟩

end Operator

namespace Graph

/-- Whether an operator is an expression. -/
def isExpression (g : Graph) (p : OperatorId) : Bool :=
  g.operators[p.index]?.any fun op => decide (op.kind = .expression)

/-- `value?` with a bound on the depth of the walk. -/
def valueWithin? (g : Graph) (I : Interpretation V) (given : OperatorId → Bool) :
    Nat → OperandId → Option V
  | 0, _ => none
  | depth + 1, a =>
    (g.producer a).toOption.bind fun p =>
      (g.operator p).toOption.bind fun op =>
        op.eval? I (given p) (g.valueWithin? I given depth) a

/-- The value of an operand.  `given` tells which expressions are not looked into. -/
def value? (g : Graph) (I : Interpretation V) (given : OperatorId → Bool) (a : OperandId) :
    Option V :=
  g.valueWithin? I given (g.operands.length + 1) a

variable {I : Interpretation V} {given : OperatorId → Bool}

theorem valueWithin?_succ {g : Graph} {depth : Nat} {a : OperandId} {p : OperatorId} {op : Operator}
    (producer : g.producer a = .ok p) (found : g.operators[p.index]? = some op) :
    g.valueWithin? I given (depth + 1) a =
      op.eval? I (given p) (g.valueWithin? I given depth) a := by
  have operator : g.operator p = .ok op := (g.operator_eq_ok_iff p op).2 found
  simp [valueWithin?, producer, operator, Except.toOption]

theorem exists_operator_of_value? {g : Graph} {a : OperandId} {value : V}
    (found : g.value? I given a = some value) :
    ∃ p op, g.producer a = .ok p ∧ g.operators[p.index]? = some op := by
  rw [value?, valueWithin?, Option.bind_eq_some_iff] at found
  obtain ⟨p, producer, found⟩ := found
  obtain ⟨op, place, -⟩ := Option.bind_eq_some_iff.1 found
  refine ⟨p, op, ?_, ?_⟩
  · cases read : g.producer a <;> simp_all [Except.toOption]
  · rw [← g.operator_eq_ok_iff]
    cases read : g.operator p <;> simp_all [Except.toOption]

/-- Beyond the height of an operand the bound does not matter. -/
theorem Determined.valueWithin?_succ_eq {g : Graph} (determined : g.Determined) {depth : Nat}
    {a : OperandId} (known : a.index < g.operands.length) (enough : g.height a < depth) :
    g.valueWithin? I given (depth + 1) a = g.valueWithin? I given depth a := by
  induction depth generalizing a with
  | zero => omega
  | succ depth ih =>
    obtain ⟨op, source⟩ := determined.produced a known
    obtain ⟨p, producer, found⟩ := (g.source_eq_ok_iff a op).1 source
    rw [valueWithin?_succ producer found, valueWithin?_succ producer found]
    apply Operator.eval?_congr
    intro b mem
    have lower := determined.height_lt ⟨op, source, mem⟩
    exact ih (determined.known_of_feeds ⟨op, source, mem⟩) (by omega)

/-- The value of every operand is computed by its producer from the values of the inputs. -/
def ValueRecursion (g : Graph) (I : Interpretation V) (given : OperatorId → Bool) : Prop :=
  ∀ (a : OperandId) (p : OperatorId) (op : Operator), g.producer a = .ok p →
    g.operators[p.index]? = some op →
      g.value? I given a = op.eval? I (given p) (g.value? I given) a

theorem Determined.value?_eq {g : Graph} (determined : g.Determined) {a : OperandId}
    {p : OperatorId} {op : Operator} (producer : g.producer a = .ok p)
    (found : g.operators[p.index]? = some op) :
    g.value? I given a = op.eval? I (given p) (g.value? I given) a := by
  have source : g.source a = .ok op := (g.source_eq_ok_iff a op).2 ⟨p, producer, found⟩
  have bound := determined.acyclic.height_lt_length (index_lt_of_source source)
  rw [value?, valueWithin?_succ producer found]
  apply Operator.eval?_congr
  intro b mem
  have lower := determined.height_lt ⟨op, source, mem⟩
  exact (determined.valueWithin?_succ_eq (determined.known_of_feeds ⟨op, source, mem⟩)
    (by omega)).symm

theorem Determined.valueRecursion {g : Graph} (determined : g.Determined) :
    g.ValueRecursion I given :=
  fun _ _ _ producer found => determined.value?_eq producer found

/-- Every literal constant has a text that spells a literal. -/
def Readable (g : Graph) : Prop :=
  ∀ op ∈ g.operators, ∀ l, op.kind = .constant → op.value = .ok (.literal l) →
    ∃ found, l.read? = some found

/-- In a graph with readable constants every operand has a value. -/
theorem Determined.exists_value? {g : Graph} (determined : g.Determined) (readable : g.Readable)
    (fixed : ∀ p, g.isExpression p = true → given p = true) {a : OperandId}
    (known : a.index < g.operands.length) : ∃ value, g.value? I given a = some value := by
  induction height : g.height a using Nat.strongRecOn generalizing a with
  | _ n ih =>
  subst height
  obtain ⟨op, source⟩ := determined.produced a known
  obtain ⟨p, producer, found⟩ := (g.source_eq_ok_iff a op).1 source
  have mem := mem_operators_of_source source
  rw [determined.value?_eq producer found]
  apply Operator.exists_eval? (determined.arity op mem) (determined.valued op mem) (readable op mem)
  · intro kind
    exact fixed p (by simp [isExpression, found, kind])
  · intro b input
    exact ih _ (determined.height_lt ⟨op, source, input⟩)
      (determined.known_of_feeds ⟨op, source, input⟩) rfl

end Graph

end FormulaFusion
