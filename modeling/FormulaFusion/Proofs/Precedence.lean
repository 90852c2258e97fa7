import Mathlib.Data.List.Basic
import FormulaFusion.Precedence
import FormulaFusion.Proofs.Success

/-!
# Sorting respects precedence

When `Precedence.sort` succeeds, its order places the first item of every pair strictly before the
second (`Precedence.idxOf_lt_idxOf_of_sort`).  Each visit leaves the items that were entered before
it as they are and finishes all others (`Search.Extends`), so the whole search finishes every item;
the pass over the finished items then has nothing left to object to.
-/

namespace FormulaFusion

namespace Precedence

variable {α : Type} [DecidableEq α]

/-! ## The search in depth -/

/-- What a visit does to the state of the search: nothing is forgotten, every item entered on the
way is also left, and no item left on the way comes before itself. -/
structure Search.Extends (p : Precedence α) (before after : Search α) : Prop where
  discovered : before.discovered ⊆ after.discovered
  finished : before.finished ⊆ after.finished
  left : ∀ a ∈ after.discovered, a ∈ before.discovered ∨ a ∈ after.finished
  loopless : ∀ a ∈ after.finished, a ∈ before.finished ∨ a ∉ p.successors a

theorem Search.Extends.refl (p : Precedence α) (search : Search α) :
    Search.Extends p search search :=
  ⟨List.Subset.refl _, List.Subset.refl _, fun _ mem => .inl mem, fun _ mem => .inl mem⟩

theorem Search.Extends.trans {p : Precedence α} {s t u : Search α}
    (first : Search.Extends p s t) (second : Search.Extends p t u) : Search.Extends p s u := by
  refine ⟨List.Subset.trans first.discovered second.discovered,
    List.Subset.trans first.finished second.finished, ?_, ?_⟩
  · intro a mem
    rcases second.left a mem with old | done
    · exact (first.left a old).imp_right fun h => second.finished h
    · exact .inr done
  · intro a mem
    rcases second.loopless a mem with old | fine
    · exact first.loopless a old
    · exact .inr fine

/-- A sequence of visits extends the search if each visit does. -/
theorem extends_of_foldlM {p : Precedence α} {step : Search α → α → Except α (Search α)}
    (each : ∀ s a t, step s a = .ok t → Search.Extends p s t) {items : List α} {s t : Search α}
    (run : items.foldlM step s = .ok t) : Search.Extends p s t := by
  induction items generalizing s with
  | nil =>
    cases run
    exact .refl p _
  | cons a rest ih =>
    obtain ⟨u, first, others⟩ := (bind_eq_ok_iff (step s a) _ t).1 run
    exact (each s a u first).trans (ih others)

/-- A visit either finds the item entered already, or enters it, visits its successors and leaves
it. -/
theorem visit_succ_eq_ok {p : Precedence α} {depth : Nat} {s t : Search α} {a : α}
    (run : p.visit (depth + 1) s a = .ok t) :
    (a ∈ s.discovered ∧ t = s) ∨ (a ∉ s.discovered ∧ a ∉ p.successors a ∧ ∃ u,
      (p.successors a).foldlM (p.visit depth) { s with discovered := a :: s.discovered } = .ok u ∧
        t = { u with finished := a :: u.finished }) := by
  rw [visit] at run
  split_ifs at run with known loop
  · exact .inl ⟨known, (Except.ok.inj run).symm⟩
  · obtain ⟨u, walk, rfl⟩ := (map_eq_ok_iff _ _ _).1 run
    exact .inr ⟨known, loop, u, walk, rfl⟩

theorem extends_of_visit {p : Precedence α} {depth : Nat} {s t : Search α} {a : α}
    (run : p.visit depth s a = .ok t) : Search.Extends p s t := by
  induction depth generalizing s t a with
  | zero =>
    cases run
    exact .refl p _
  | succ depth ih =>
    obtain ⟨-, rfl⟩ | ⟨-, loop, u, walk, rfl⟩ := visit_succ_eq_ok run
    · exact .refl p t
    · have inner := extends_of_foldlM (fun _ _ _ => ih) walk
      refine ⟨fun b mem => inner.discovered (List.mem_cons_of_mem a mem),
        fun b mem => List.mem_cons_of_mem a (inner.finished mem), ?_, ?_⟩
      · intro b mem
        rcases inner.left b mem with old | done
        · rcases List.mem_cons.1 old with rfl | old
          · exact .inr List.mem_cons_self
          · exact .inl old
        · exact .inr (List.mem_cons_of_mem a done)
      · intro b mem
        rcases List.mem_cons.1 mem with rfl | mem
        · exact .inr loop
        · exact inner.loopless b mem

theorem mem_discovered_of_visit {p : Precedence α} {depth : Nat} {s t : Search α} {a : α}
    (run : p.visit (depth + 1) s a = .ok t) : a ∈ t.discovered := by
  obtain ⟨known, rfl⟩ | ⟨-, -, u, walk, rfl⟩ := visit_succ_eq_ok run
  · exact known
  · exact (extends_of_foldlM (fun _ _ _ => extends_of_visit) walk).discovered List.mem_cons_self

theorem subset_discovered_of_foldlM {p : Precedence α} {depth : Nat} {items : List α}
    {s t : Search α} (run : items.foldlM (p.visit (depth + 1)) s = .ok t) :
    items ⊆ t.discovered := by
  induction items generalizing s with
  | nil => exact List.nil_subset _
  | cons a rest ih =>
    obtain ⟨u, first, others⟩ := (bind_eq_ok_iff (p.visit (depth + 1) s a) _ t).1 run
    refine List.cons_subset.2 ⟨?_, ih others⟩
    exact (extends_of_foldlM (fun _ _ _ => extends_of_visit) others).discovered
      (mem_discovered_of_visit first)

/-- The whole search leaves every item, and none that comes before itself. -/
theorem finished_of_search {p : Precedence α} {s : Search α} (run : p.search = .ok s) :
    (∀ a ∈ p.items, a ∈ s.finished) ∧ ∀ a ∈ s.finished, a ∉ p.successors a := by
  have whole : Search.Extends p ⟨[], []⟩ s := extends_of_foldlM (fun _ _ _ => extends_of_visit) run
  constructor
  · intro a mem
    have entered := subset_discovered_of_foldlM run mem
    exact (whole.left a entered).resolve_left (List.not_mem_nil)
  · intro a mem
    exact (whole.loopless a mem).resolve_left (List.not_mem_nil)

/-! ## The pass over the finished items -/

/-- If no item is misplaced, each one stands after its predecessors. -/
theorem predecessors_subset_of_misplaced? {p : Precedence α} {placed before after : List α}
    {a : α} (fine : p.misplaced? placed (before ++ a :: after) = none) {b : α}
    (pred : b ∈ p.predecessors a) : b = a ∨ b ∈ before ∨ b ∈ placed := by
  induction before generalizing placed with
  | nil =>
    rw [List.nil_append, misplaced?, Option.or_eq_none_iff, List.find?_eq_none] at fine
    have := fine.1 b pred
    simp only [decide_eq_true_eq, not_not, List.mem_cons] at this
    tauto
  | cons c before ih =>
    rw [List.cons_append, misplaced?, Option.or_eq_none_iff] at fine
    rcases ih fine.2 with rfl | h | h
    · exact .inl rfl
    · exact .inr (.inl (List.mem_cons_of_mem c h))
    · rcases List.mem_cons.1 h with rfl | h
      · exact .inr (.inl List.mem_cons_self)
      · exact .inr (.inr h)

/-- A successful sort places the first item of a pair before the second. -/
theorem idxOf_lt_idxOf_of_sort {p : Precedence α} {order : List α} (sorted : p.sort = .ok order)
    {a b : α} (pair : (b, a) ∈ p.pairs) (item : a ∈ p.items) : order.idxOf b < order.idxOf a := by
  obtain ⟨s, run, result⟩ := (bind_eq_ok_iff _ _ _).1 sorted
  cases fine : p.misplaced? [] s.finished with
  | some c => simp [fine] at result
  | none =>
    obtain rfl : s.finished = order := by simpa [fine] using result
    obtain ⟨complete, loopless⟩ := finished_of_search run
    obtain ⟨before, after, split, first⟩ := List.eq_append_cons_of_mem (complete a item)
    have distinct : b ≠ a := by
      rintro rfl
      exact loopless b (complete b item) ((p.mem_successors_iff b b).2 pair)
    rw [split] at fine ⊢
    have earlier : b ∈ before := by
      rcases predecessors_subset_of_misplaced? fine ((p.mem_predecessors_iff a b).2 pair) with
        same | h | h
      · exact absurd same distinct
      · exact h
      · cases h
    rw [List.idxOf_append_of_mem earlier, List.idxOf_append_of_notMem first, List.idxOf_cons_self]
    exact List.idxOf_lt_length_of_mem earlier

end Precedence

end FormulaFusion
