import Mathlib.Data.Finset.Card
import Mathlib.Logic.Relation
import FormulaFusion.Graph.Basic
import FormulaFusion.Proofs.Success

/-!
# Dependencies between operators and operands

`Graph.Reads` relates an operator to the producers of its inputs, `Graph.DependsOn` is its
transitive closure, and a graph is `Acyclic` if no operator depends on itself.  An order is
`Topological` if every operator stands in it after those that it reads.  `Graph.Feeds` is the same step
seen from operands: `b` feeds `a` if the producer of `a` has `b` among its inputs.  In an
acyclic graph the number of operands that an operand is computed from (`Graph.height`) drops along
`Feeds` and stays below the number of operands, so a walk along `Feeds` is never deeper than that.
-/

open Relation

namespace FormulaFusion

namespace Graph

/-- Operator `q` has an input that `p` produces. -/
def Reads (g : Graph) (q p : OperatorId) : Prop :=
  ∃ op input, g.operators[q.index]? = some op ∧ input ∈ op.inputs ∧ g.producer input = .ok p

/-- Operator `q` is computed from the outputs of `p`, directly or through other operators. -/
def DependsOn (g : Graph) : OperatorId → OperatorId → Prop := TransGen g.Reads

/-- No operator depends on itself. -/
def Acyclic (g : Graph) : Prop := ∀ p, ¬g.DependsOn p p

/-- All operators, in an order in which each one stands after those that it reads. -/
def Topological (g : Graph) (order : List OperatorId) : Prop :=
  order.Perm g.operatorIds ∧ ∀ q p, g.Reads q p → order.idxOf p < order.idxOf q

/-- The producer of `a` has `b` among its inputs. -/
def Feeds (g : Graph) (b a : OperandId) : Prop := ∃ op, g.source a = .ok op ∧ b ∈ op.inputs

/-- What holds of all operators and what they read, seen slot by slot. -/
theorem forall_reads_iff (g : Graph) (R : OperatorId → OperatorId → Prop) :
    (∀ q p, g.Reads q p → R q p) ↔ ∀ entry ∈ g.operators.zipIdx,
      ∀ a ∈ entry.1.inputs, ∀ p ∈ (g.producer a).toOption, R ⟨entry.2⟩ p := by
  constructor
  · rintro each ⟨op, q⟩ entry a mem p producer
    refine each ⟨q⟩ p ⟨op, a, List.mk_mem_zipIdx_iff_getElem?.1 entry, mem, ?_⟩
    cases found : g.producer a <;> simp_all [Except.toOption]
  · rintro each q p ⟨op, a, found, mem, producer⟩
    refine each (op, q.index) (List.mk_mem_zipIdx_iff_getElem?.2 found) a mem p ?_
    simp [producer, Except.toOption]

instance (g : Graph) (order : List OperatorId) : Decidable (g.Topological order) :=
  decidable_of_iff _ (and_congr_right' (g.forall_reads_iff _).symm)

/-- What grows along `Reads` grows along `DependsOn`. -/
theorem lt_of_dependsOn {g : Graph} {rank : OperatorId → Nat}
    (each : ∀ q p, g.Reads q p → rank p < rank q) {q p : OperatorId} (depends : g.DependsOn q p) :
    rank p < rank q := by
  induction depends with
  | single reads => exact each _ _ reads
  | tail _ reads ih => exact (each _ _ reads).trans ih

theorem source_eq_ok_iff (g : Graph) (a : OperandId) (op : Operator) :
    g.source a = .ok op ↔ ∃ p, g.producer a = .ok p ∧ g.operators[p.index]? = some op := by
  unfold source
  simp only [bind_eq_ok_iff, operator_eq_ok_iff]

theorem index_lt_of_source {g : Graph} {a : OperandId} {op : Operator}
    (source : g.source a = .ok op) : a.index < g.operands.length := by
  obtain ⟨p, producer, -⟩ := (g.source_eq_ok_iff a op).1 source
  obtain ⟨operand, found, -⟩ := (g.producer_eq_ok_iff a p).1 producer
  exact (List.getElem?_eq_some_iff.1 found).1

theorem mem_operators_of_source {g : Graph} {a : OperandId} {op : Operator}
    (source : g.source a = .ok op) : op ∈ g.operators := by
  obtain ⟨p, -, found⟩ := (g.source_eq_ok_iff a op).1 source
  exact List.mem_of_getElem? found

/-- An operator that reads `p` one step after another depends on it. -/
theorem dependsOn_of_feeds {g : Graph} {a b : OperandId} {p q : OperatorId}
    (feeds : TransGen g.Feeds b a) (producer_a : g.producer a = .ok q)
    (producer_b : g.producer b = .ok p) : g.DependsOn q p := by
  induction feeds generalizing q with
  | single step =>
    obtain ⟨op, source, mem⟩ := step
    obtain ⟨r, producer, found⟩ := (g.source_eq_ok_iff _ op).1 source
    obtain rfl : r = q := Except.ok.inj (producer.symm.trans producer_a)
    exact .single ⟨op, b, found, mem, producer_b⟩
  | @tail c a _ step ih =>
    obtain ⟨op, source, mem⟩ := step
    obtain ⟨r, producer, found⟩ := (g.source_eq_ok_iff a op).1 source
    obtain rfl : r = q := Except.ok.inj (producer.symm.trans producer_a)
    -- `c` ends a non-empty chain, so it has a producer to continue from.
    obtain ⟨s, producer_c⟩ : ∃ s, g.producer c = .ok s := by
      obtain ⟨_, _, ⟨op', source', _⟩⟩ := TransGen.tail'_iff.1 ‹TransGen g.Feeds b c›
      obtain ⟨s, producer', -⟩ := (g.source_eq_ok_iff c op').1 source'
      exact ⟨s, producer'⟩
    exact TransGen.head ⟨op, c, found, mem, producer_c⟩ (ih producer_c)

/-- In an acyclic graph no operand is computed from itself. -/
theorem Acyclic.not_feeds_self {g : Graph} (acyclic : g.Acyclic) (a : OperandId) :
    ¬TransGen g.Feeds a a := by
  intro cycle
  obtain ⟨_, _, ⟨op, source, _⟩⟩ := TransGen.tail'_iff.1 cycle
  obtain ⟨p, producer, -⟩ := (g.source_eq_ok_iff a op).1 source
  exact acyclic p (dependsOn_of_feeds cycle producer producer)

/-! ## Heights -/

open Classical in
/-- The number of operands from which an operand is computed. -/
noncomputable def height (g : Graph) (a : OperandId) : Nat :=
  ((Finset.range g.operands.length).filter fun i => TransGen g.Feeds ⟨i⟩ a).card

theorem Acyclic.height_lt_length {g : Graph} (acyclic : g.Acyclic) {a : OperandId}
    (known : a.index < g.operands.length) : g.height a < g.operands.length := by
  classical
  rw [height]
  refine lt_of_lt_of_eq (Finset.card_lt_card ?_) (Finset.card_range _)
  refine (Finset.filter_ssubset).2 ⟨a.index, Finset.mem_range.2 known, ?_⟩
  exact acyclic.not_feeds_self a

theorem Acyclic.height_lt_height {g : Graph} (acyclic : g.Acyclic) {a b : OperandId}
    (feeds : g.Feeds b a) (known : b.index < g.operands.length) : g.height b < g.height a := by
  classical
  rw [height, height]
  refine Finset.card_lt_card ((Finset.ssubset_iff_of_subset ?_).2 ⟨b.index, ?_, ?_⟩)
  · intro i mem
    rw [Finset.mem_filter] at mem ⊢
    exact ⟨mem.1, mem.2.tail feeds⟩
  · exact Finset.mem_filter.2 ⟨Finset.mem_range.2 known, .single feeds⟩
  · rw [Finset.mem_filter]
    exact fun mem => acyclic.not_feeds_self b mem.2

end Graph

end FormulaFusion
