import FormulaFusion.Proofs.Graph.Validity

/-!
# Well-formed graphs

A graph is `Grounded` if every operand goes back to operators without inputs: it has a producer, the
inputs of that exist, and nothing depends on itself.  It is `Determined` if every operand has a value
that can be computed: in addition, operators have the inputs and the constant that their kind asks
for.  A `WellFormed` graph is determined, its links agree, and no operator that can be written into a
formula is without outputs.  Validation establishes this for every graph that edits can build
(`Graph.wellFormed_of_validate`); a graph in which operators were changed in any way and that validation
accepts is still determined (`Graph.Edited.determined_of_validate`).
-/

open Relation

namespace FormulaFusion

namespace Graph

/-- Every operand goes back to operators without inputs in finitely many steps. -/
structure Grounded (g : Graph) : Prop where
  input_known : ∀ op ∈ g.operators, ∀ a ∈ op.inputs, a.index < g.operands.length
  produced : ∀ a : OperandId, a.index < g.operands.length → ∃ op, g.source a = .ok op
  acyclic : g.Acyclic

/-- Every operand of the graph has a value that can be computed. -/
structure Determined (g : Graph) : Prop extends Grounded g where
  arity : ∀ op ∈ g.operators, op.kind.arity.accepts op.inputs.length = true
  valued : ∀ op ∈ g.operators, op.kind = .constant → ∃ value, op.value = .ok value

/-- Links agree, all values can be computed, and what can be written into a formula has outputs. -/
structure WellFormed (g : Graph) : Prop where
  linked : g.Linked
  determined : g.Determined
  outputs : ∀ op ∈ g.operators, op.kind.isInlinable = true → op.outputs ≠ []

/-- A valid graph is determined, if the producers that it records are operators of it. -/
theorem Valid.determined {g : Graph} (valid : g.Valid)
    (placed : ∀ a p, g.producer a = .ok p → p.index < g.operators.length) : g.Determined := by
  refine ⟨⟨?_, ?_, valid.acyclic⟩, valid.arity, valid.valued⟩
  · intro op mem a input
    obtain ⟨q, found⟩ := List.getElem?_of_mem mem
    exact valid.agrees.input_known found a input
  · intro a known
    obtain ⟨p, producer⟩ := valid.produced a known
    have found := List.getElem?_eq_getElem (placed a p producer)
    exact ⟨_, (g.source_eq_ok_iff a _).2 ⟨p, producer, found⟩⟩

/-- A graph with agreeing links that validation accepts is well formed. -/
theorem wellFormed_of_validate {g : Graph} (linked : g.Linked) (valid : g.validate = .ok ()) :
    g.WellFormed := by
  have valid := g.validate_eq_ok_iff.1 valid
  refine ⟨linked, valid.determined fun a p producer => ?_, valid.outputs⟩
  obtain ⟨op, found, -⟩ := linked.producer_iff.1 producer
  exact (List.getElem?_eq_some_iff.1 found).1

/-- Validation accepts only graphs in which every value can be computed, whatever was done to the
operators before. -/
theorem Edited.determined_of_validate {g : Graph} (edited : g.Edited)
    (valid : g.validate = .ok ()) : g.Determined :=
  (g.validate_eq_ok_iff.1 valid).determined fun _ _ => edited.producer_lt

/-! ## Heights of operands -/

/-- The inputs of a producer are operands of the graph. -/
theorem Grounded.known_of_feeds {g : Graph} (grounded : g.Grounded) {a b : OperandId}
    (feeds : g.Feeds b a) : b.index < g.operands.length := by
  obtain ⟨op, source, mem⟩ := feeds
  exact grounded.input_known op (mem_operators_of_source source) b mem

theorem Grounded.height_lt {g : Graph} (grounded : g.Grounded) {a b : OperandId}
    (feeds : g.Feeds b a) : g.height b < g.height a :=
  grounded.acyclic.height_lt_height feeds (grounded.known_of_feeds feeds)

theorem Grounded.height_lt_of_transGen {g : Graph} (grounded : g.Grounded) {a b : OperandId}
    (feeds : TransGen g.Feeds b a) : g.height b < g.height a := by
  induction feeds with
  | single feeds => exact grounded.height_lt feeds
  | tail _ feeds ih => exact ih.trans (grounded.height_lt feeds)

end Graph

end FormulaFusion
