import Mathlib.Data.List.Perm.Subperm
import Mathlib.Logic.Relation
import FormulaFusion.Proofs.Precedence

/-!
# Sorting fails on cycles only

An item that `Precedence.sort` names in its failure leads back to itself
(`Precedence.leads_self_of_sort`), so items without cycles can always be sorted
(`Precedence.exists_sort_eq_ok`).  While the search is under way, the items that it has entered and
not yet left form a path to the item that it visits (`Search.Open`).  So when it leaves an item, each
successor is left already or leads back to the item (`Precedence.Finishing`), and this is what the
pass over the finished items relies on.  An order that is found lists every item once
(`Precedence.perm_items_of_sort`).
-/

open Relation

namespace FormulaFusion

namespace Precedence

variable {α : Type} [DecidableEq α] {p : Precedence α}

/-- One item comes before another, through any number of pairs. -/
def Leads (p : Precedence α) : α → α → Prop := TransGen fun a b => (a, b) ∈ p.pairs

/-- Pairs relate items of the list. -/
def Closed (p : Precedence α) : Prop := ∀ pair ∈ p.pairs, pair.1 ∈ p.items ∧ pair.2 ∈ p.items

/-- Every successor of an item stands behind it or leads back to it. -/
def Finishing (p : Precedence α) : List α → Prop
  | [] => True
  | a :: rest => (∀ b ∈ p.successors a, b ∈ rest ∨ p.Leads b a) ∧ p.Finishing rest

theorem Finishing.mem_or_leads {order : List α} (finishing : p.Finishing order) {a b : α}
    (mem : a ∈ order) (succ : b ∈ p.successors a) : b ∈ order ∨ p.Leads b a := by
  induction order with
  | nil => cases mem
  | cons c rest ih =>
    rcases List.mem_cons.1 mem with rfl | mem
    · exact (finishing.1 b succ).imp_left (List.mem_cons_of_mem a)
    · exact (ih finishing.2 mem).imp_left (List.mem_cons_of_mem c)

/-! ## The search in depth -/

/-- The search has entered the items of `path` and not left them, and has entered and left the
finished ones, each once. -/
structure Search.Open (p : Precedence α) (s : Search α) (path : List α) : Prop where
  nodup : (path ++ s.finished).Nodup
  mem_discovered_iff : ∀ a, a ∈ s.discovered ↔ a ∈ path ∨ a ∈ s.finished
  subset_items : path ⊆ p.items
  finishing : p.Finishing s.finished

namespace Search.Open

variable {s t : Search α} {path : List α} {a : α}

/-- Entering an item that was not entered before makes the path longer. -/
theorem enter (opened : Search.Open p s path) (fresh : a ∉ s.discovered) (item : a ∈ p.items) :
    Search.Open p { s with discovered := a :: s.discovered } (a :: path) where
  nodup := by
    refine List.nodup_cons.2 ⟨fun mem => fresh ?_, opened.nodup⟩
    exact (opened.mem_discovered_iff a).2 (List.mem_append.1 mem)
  mem_discovered_iff b := by
    rw [List.mem_cons, List.mem_cons, opened.mem_discovered_iff, or_assoc]
  subset_items := List.cons_subset.2 ⟨item, opened.subset_items⟩
  finishing := opened.finishing

/-- An item can be left when its successors were entered and the path leads to it. -/
theorem leave (opened : Search.Open p s (a :: path)) (leads : ∀ b ∈ path, p.Leads b a)
    (entered : ∀ b ∈ p.successors a, b ∈ s.discovered) :
    Search.Open p { s with finished := a :: s.finished } path where
  nodup := List.perm_middle.nodup_iff.2 opened.nodup
  mem_discovered_iff b := by
    rw [opened.mem_discovered_iff, List.mem_cons, List.mem_cons]
    tauto
  subset_items := (List.cons_subset.1 opened.subset_items).2
  finishing := by
    refine ⟨fun b succ => ?_, opened.finishing⟩
    rcases (opened.mem_discovered_iff b).1 (entered b succ) with onPath | left
    · rcases List.mem_cons.1 onPath with rfl | above
      · exact .inr (.single ((p.mem_successors_iff b b).1 succ))
      · exact .inr (leads b above)
    · exact .inl left

/-- A path has no more items than there are. -/
theorem length_le (opened : Search.Open p s path) : path.length ≤ p.items.length :=
  (List.subperm_of_subset (List.nodup_append.1 opened.nodup).1 opened.subset_items).length_le

/-- If each visit keeps the path and enters its item, a sequence of visits does so with all its
items. -/
theorem foldlM {depth : Nat} {items : List α}
    (each : ∀ b ∈ items, ∀ s t : Search α, Search.Open p s path → p.visit depth s b = .ok t →
      Search.Open p t path ∧ b ∈ t.discovered)
    (opened : Search.Open p s path) (run : items.foldlM (p.visit depth) s = .ok t) :
    Search.Open p t path ∧ ∀ b ∈ items, b ∈ t.discovered := by
  induction items generalizing s with
  | nil =>
    cases run
    exact ⟨opened, fun b mem => absurd mem List.not_mem_nil⟩
  | cons b rest ih =>
    obtain ⟨u, first, others⟩ := (bind_eq_ok_iff (p.visit depth s b) _ t).1 run
    obtain ⟨opened', entered⟩ := each b List.mem_cons_self s u opened first
    obtain ⟨opened'', entered'⟩ :=
      ih (fun c mem => each c (List.mem_cons_of_mem b mem)) opened' others
    refine ⟨opened'', List.forall_mem_cons.2 ⟨?_, entered'⟩⟩
    exact (extends_of_foldlM (fun _ _ _ => extends_of_visit) others).discovered entered

/-- A visit keeps the path that leads to its item, and enters the item.  The path cannot hold more
items than there are, so the bound on the depth is never reached. -/
theorem visit (closed : p.Closed) {depth : Nat} (opened : Search.Open p s path) (item : a ∈ p.items)
    (leads : ∀ b ∈ path, p.Leads b a) (enough : p.items.length < depth + path.length)
    (run : p.visit depth s a = .ok t) : Search.Open p t path ∧ a ∈ t.discovered := by
  induction depth generalizing s t a path with
  | zero =>
    -- No depth is left, so the path would be longer than the list of items.
    have := opened.length_le
    omega
  | succ depth ih =>
    obtain ⟨known, rfl⟩ | ⟨fresh, -, u, walk, rfl⟩ := visit_succ_eq_ok run
    · exact ⟨opened, known⟩
    have each : ∀ b ∈ p.successors a, ∀ s t : Search α, Search.Open p s (a :: path) →
        p.visit depth s b = .ok t → Search.Open p t (a :: path) ∧ b ∈ t.discovered := by
      intro b succ s t opened step
      have pair := (p.mem_successors_iff a b).1 succ
      refine ih opened (closed _ pair).2 ?_ (by rw [List.length_cons]; omega) step
      exact List.forall_mem_cons.2 ⟨.single pair, fun c mem => (leads c mem).tail pair⟩
    obtain ⟨opened', entered⟩ := (opened.enter fresh item).foldlM each walk
    refine ⟨opened'.leave leads entered, ?_⟩
    exact (opened'.mem_discovered_iff a).2 (.inl List.mem_cons_self)

end Search.Open

/-- The whole search leaves its items in an order in which successors stand behind or lead back. -/
theorem finishing_of_search (closed : p.Closed) {s : Search α} (run : p.search = .ok s) :
    s.finished.Nodup ∧ p.Finishing s.finished := by
  have start : Search.Open p ⟨[], []⟩ [] :=
    ⟨List.nodup_nil, fun a => by simp, List.nil_subset _, trivial⟩
  have each : ∀ a ∈ p.items, ∀ s t : Search α, Search.Open p s [] →
      p.visit (p.items.length + 1) s a = .ok t → Search.Open p t [] ∧ a ∈ t.discovered := by
    intro a item s t opened step
    refine opened.visit closed item (fun b mem => ?_) (by simp) step
    cases mem
  have done := (start.foldlM each run).1
  exact ⟨by simpa using done.nodup, done.finishing⟩

/-! ## Sorted items -/

omit [DecidableEq α] in
/-- A sequence of visits leaves items of the list only, if each visit does. -/
theorem mem_items_of_foldlM {step : Search α → α → Except α (Search α)} {items : List α}
    (each : ∀ a ∈ items, ∀ s t, step s a = .ok t → ∀ b ∈ t.finished,
      b ∈ s.finished ∨ b ∈ p.items)
    {s t : Search α} (run : items.foldlM step s = .ok t) {b : α} (left : b ∈ t.finished) :
    b ∈ s.finished ∨ b ∈ p.items := by
  induction items generalizing s with
  | nil =>
    cases run
    exact .inl left
  | cons a rest ih =>
    obtain ⟨u, first, others⟩ := (bind_eq_ok_iff (step s a) _ t).1 run
    rcases ih (fun c mem => each c (List.mem_cons_of_mem a mem)) others with early | item
    · exact each a List.mem_cons_self s u first b early
    · exact .inr item

theorem mem_items_of_visit (closed : p.Closed) {depth : Nat} {s t : Search α} {a : α}
    (item : a ∈ p.items) (run : p.visit depth s a = .ok t) {b : α} (left : b ∈ t.finished) :
    b ∈ s.finished ∨ b ∈ p.items := by
  induction depth generalizing s t a b with
  | zero =>
    cases run
    exact .inl left
  | succ depth ih =>
    obtain ⟨-, rfl⟩ | ⟨-, -, u, walk, rfl⟩ := visit_succ_eq_ok run
    · exact .inl left
    · rcases List.mem_cons.1 left with rfl | left
      · exact .inr item
      · refine mem_items_of_foldlM (fun c succ s t step d left => ?_) walk left
        exact ih (closed _ ((p.mem_successors_iff a c).1 succ)).2 step left

/-- A successful sort lists every item once and nothing else. -/
theorem perm_items_of_sort (closed : p.Closed) (distinct : p.items.Nodup) {order : List α}
    (sorted : p.sort = .ok order) : order.Perm p.items := by
  obtain ⟨s, run, result⟩ := (bind_eq_ok_iff _ _ _).1 sorted
  obtain rfl : s.finished = order := by
    cases misplaced : p.misplaced? [] s.finished <;> simp_all
  refine (List.perm_ext_iff_of_nodup (finishing_of_search closed run).1 distinct).2 fun a => ?_
  constructor
  · intro left
    have inside := mem_items_of_foldlM (fun b item s t step c left =>
      mem_items_of_visit closed item step left) run left
    exact inside.resolve_left List.not_mem_nil
  · exact (finished_of_search run).1 a

/-! ## Failures -/

omit [DecidableEq α] in
/-- A sequence of visits fails at an item before itself if each visit does. -/
theorem mem_pairs_of_foldlM_eq_error {step : Search α → α → Except α (Search α)} {b : α}
    (each : ∀ s a, step s a = .error b → (b, b) ∈ p.pairs) {items : List α} {s : Search α}
    (failed : items.foldlM step s = .error b) : (b, b) ∈ p.pairs := by
  induction items generalizing s with
  | nil => cases failed
  | cons a rest ih =>
    rcases (bind_eq_error_iff (step s a) _ b).1 failed with first | ⟨u, -, others⟩
    · exact each s a first
    · exact ih others

theorem mem_pairs_of_visit_eq_error {depth : Nat} {s : Search α} {a b : α}
    (failed : p.visit depth s a = .error b) : (b, b) ∈ p.pairs := by
  induction depth generalizing s a with
  | zero => cases failed
  | succ depth ih =>
    rw [visit] at failed
    split_ifs at failed with known loop
    · obtain rfl := Except.error.inj failed
      exact (p.mem_successors_iff a a).1 loop
    · exact mem_pairs_of_foldlM_eq_error (fun _ _ => ih) ((map_eq_error_iff _ _ _).1 failed)

/-- A predecessor that stands too late leads back to itself: when it was left, its successor had been
entered and not left. -/
theorem leads_self_of_misplaced? (closed : p.Closed) {placed rest : List α}
    (nodup : rest.Nodup) (finishing : p.Finishing rest)
    (covered : ∀ a ∈ p.items, a ∈ placed ∨ a ∈ rest) {b : α}
    (misplaced : p.misplaced? placed rest = some b) : p.Leads b b := by
  induction rest generalizing placed with
  | nil => cases misplaced
  | cons a rest ih =>
    obtain ⟨once, nodup⟩ := List.nodup_cons.1 nodup
    rw [misplaced?, Option.or_eq_some_iff] at misplaced
    rcases misplaced with here | ⟨-, later⟩
    · have pair := (p.mem_predecessors_iff a b).1 (List.mem_of_find?_eq_some here)
      have late : b ∉ a :: placed := by simpa using List.find?_some here
      have behind : b ∈ rest := by
        rcases covered b (closed _ pair).1 with early | mem
        · exact absurd (List.mem_cons_of_mem a early) late
        · exact (List.mem_cons.1 mem).resolve_left fun same => late (by simp [same])
      -- `a` is a successor of `b` and does not stand behind it, so it leads back to it.
      have back := finishing.2.mem_or_leads behind ((p.mem_successors_iff b a).2 pair)
      exact .head pair (back.resolve_left once)
    · refine ih nodup finishing.2 (fun c item => ?_) later
      rcases covered c item with early | mem
      · exact .inl (List.mem_cons_of_mem a early)
      · rcases List.mem_cons.1 mem with rfl | mem
        · exact .inl List.mem_cons_self
        · exact .inr mem

/-- An item that a failed sort names leads back to itself. -/
theorem leads_self_of_sort (closed : p.Closed) {a : α} (failed : p.sort = .error a) :
    p.Leads a a := by
  rcases (bind_eq_error_iff _ _ _).1 failed with search | ⟨s, run, result⟩
  · exact .single (mem_pairs_of_foldlM_eq_error (fun _ _ => mem_pairs_of_visit_eq_error) search)
  · obtain ⟨nodup, finishing⟩ := finishing_of_search closed run
    cases misplaced : p.misplaced? [] s.finished with
    | none => simp [misplaced] at result
    | some b =>
      obtain rfl : b = a := by simpa [misplaced] using result
      refine leads_self_of_misplaced? closed nodup finishing (fun c item => ?_) misplaced
      exact .inr ((finished_of_search run).1 c item)

/-- Items none of which leads back to itself can be sorted. -/
theorem exists_sort_eq_ok (closed : p.Closed) (acyclic : ∀ a, ¬p.Leads a a) :
    ∃ order, p.sort = .ok order := by
  cases sorted : p.sort with
  | ok order => exact ⟨order, rfl⟩
  | error a => exact absurd (leads_self_of_sort closed sorted) (acyclic a)

end Precedence

end FormulaFusion
