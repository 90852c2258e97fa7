import FormulaFusion.Proofs.Precedence.Cycle

/-!
# Sorting with a stack

The search behind `Precedence.sort` can be run without recursion, with the items still to be looked at
on a stack.  An item is entered when it is first seen on top: the successors that were not entered
before come above it, and it is left when it is on top again.  An item can stand on the stack several
times (`Precedence.Drains`); by the time the search comes to a later copy, the item has been left.  A
second search, backwards from every item in the order found, reports the second item that it visits
from one start (`Precedence.secondVisit?`).  This procedure ends on every list of items that is closed
under its pairs, and it ends with what `Precedence.sort` gives (`Precedence.stackSorts_iff`).
-/

namespace FormulaFusion

namespace Precedence

variable {α : Type} [DecidableEq α]

/-! ## The procedure -/

/-- A stack of items, the top first, is worked off from a state of the search with a result.  An item
before itself ends the search. -/
inductive Drains (p : Precedence α) : List α → Search α → Except α (Search α) → Prop
  | done {s : Search α} : Drains p [] s (.ok s)
  | loop {s : Search α} {a : α} {rest : List α} : a ∉ s.discovered → a ∈ p.successors a →
      Drains p (a :: rest) s (.error a)
  | enter {s : Search α} {a : α} {rest : List α} {r : Except α (Search α)} :
      a ∉ s.discovered → a ∉ p.successors a →
      Drains p ((p.successors a).filter (· ∉ a :: s.discovered) ++ a :: rest)
        { s with discovered := a :: s.discovered } r →
      Drains p (a :: rest) s r
  | leave {s : Search α} {a : α} {rest : List α} {r : Except α (Search α)} :
      a ∈ s.discovered → a ∉ s.finished →
      Drains p rest { s with finished := a :: s.finished } r → Drains p (a :: rest) s r
  | skip {s : Search α} {a : α} {rest : List α} {r : Except α (Search α)} :
      a ∈ s.discovered → a ∈ s.finished → Drains p rest s r → Drains p (a :: rest) s r

/-- The search goes through a list of items with a result, each item that was not entered before being
put on an empty stack. -/
inductive DrainsAll (p : Precedence α) : List α → Search α → Except α (Search α) → Prop
  | nil {s : Search α} : DrainsAll p [] s (.ok s)
  | known {s : Search α} {a : α} {rest : List α} {r : Except α (Search α)} :
      a ∈ s.discovered → DrainsAll p rest s r → DrainsAll p (a :: rest) s r
  | fresh {s t : Search α} {a : α} {rest : List α} {r : Except α (Search α)} :
      a ∉ s.discovered → Drains p [a] s (.ok t) → DrainsAll p rest t r → DrainsAll p (a :: rest) s r
  | failed {s : Search α} {a b : α} {rest : List α} :
      a ∉ s.discovered → Drains p [a] s (.error b) → DrainsAll p (a :: rest) s (.error b)

/-- Takes items off a stack up to the first that was not seen, and puts its predecessors that were not
seen onto the stack.  The results are the item, the stack and the items seen. -/
def visitBack? (p : Precedence α) (seen : List α) : List α → Option (α × List α × List α)
  | [] => none
  | a :: rest =>
    if a ∈ seen then p.visitBack? seen rest
    else some (a, (p.predecessors a).filter (· ∉ a :: seen) ++ rest, a :: seen)

/-- The second item that is visited backwards from one of the items of a list. -/
def secondVisit? (p : Precedence α) (seen : List α) : List α → Option α
  | [] => none
  | a :: rest =>
    match p.visitBack? seen [a] with
    | none => p.secondVisit? seen rest
    | some (_, stack, seen) =>
      match p.visitBack? seen stack with
      | none => p.secondVisit? seen rest
      | some (b, _, _) => some b

/-- The two searches one after the other end with a result. -/
inductive StackSorts (p : Precedence α) : Except α (List α) → Prop
  | loop {a : α} : DrainsAll p p.items ⟨[], []⟩ (.error a) → StackSorts p (.error a)
  | misplaced {s : Search α} {a : α} : DrainsAll p p.items ⟨[], []⟩ (.ok s) →
      p.secondVisit? [] s.finished = some a → StackSorts p (.error a)
  | sorted {s : Search α} : DrainsAll p p.items ⟨[], []⟩ (.ok s) →
      p.secondVisit? [] s.finished = none → StackSorts p (.ok s.finished)

variable {p : Precedence α}

/-! ## The result is unique -/

theorem Drains.unique {stack : List α} {s : Search α} {r r' : Except α (Search α)}
    (drains : p.Drains stack s r) (drains' : p.Drains stack s r') : r = r' := by
  induction drains with
  | done =>
    cases drains'
    rfl
  | loop fresh loop =>
    cases drains' with
    | loop => rfl
    | enter _ free => exact absurd loop free
    | leave known | skip known => exact absurd known fresh
  | enter fresh free _ ih =>
    cases drains' with
    | loop _ loop => exact absurd loop free
    | enter _ _ next => exact ih next
    | leave known | skip known => exact absurd known fresh
  | leave known pending _ ih =>
    cases drains' with
    | loop fresh | enter fresh => exact absurd known fresh
    | leave _ _ next => exact ih next
    | skip _ left => exact absurd left pending
  | skip known left _ ih =>
    cases drains' with
    | loop fresh | enter fresh => exact absurd known fresh
    | leave _ pending => exact absurd left pending
    | skip _ _ next => exact ih next

theorem DrainsAll.unique {items : List α} {s : Search α} {r r' : Except α (Search α)}
    (drains : p.DrainsAll items s r) (drains' : p.DrainsAll items s r') : r = r' := by
  induction drains with
  | nil =>
    cases drains'
    rfl
  | known known _ ih =>
    cases drains' with
    | known _ next => exact ih next
    | fresh fresh | failed fresh => exact absurd known fresh
  | fresh fresh first _ ih =>
    cases drains' with
    | known known => exact absurd known fresh
    | fresh _ first' next =>
      obtain rfl := Except.ok.inj (first.unique first')
      exact ih next
    | failed _ first' => cases first.unique first'
  | failed fresh first =>
    cases drains' with
    | known known => exact absurd known fresh
    | fresh _ first' => cases first.unique first'
    | failed _ first' => exact congrArg _ (Except.error.inj (first.unique first'))

theorem StackSorts.unique {r r' : Except α (List α)} (sorts : p.StackSorts r)
    (sorts' : p.StackSorts r') : r = r' := by
  cases sorts with
  | loop search =>
    cases sorts' with
    | loop search' => exact congrArg _ (Except.error.inj (search.unique search'))
    | misplaced search' | sorted search' => cases search.unique search'
  | misplaced search second | sorted search second =>
    cases sorts' with
    | loop search' => cases search.unique search'
    | misplaced search' second' | sorted search' second' =>
      obtain rfl := Except.ok.inj (search.unique search')
      simp_all

/-! ## The search with a stack follows the visits -/

/-- A stack is worked off with a result from where a visit ends, or the visit fails with it. -/
def Resumes (p : Precedence α) (rest : List α) (r : Except α (Search α)) :
    Except α (Search α) → Prop
  | .ok s => p.Drains rest s r
  | .error a => r = .error a

theorem visit_of_mem_discovered {depth : Nat} {s : Search α} {a : α} (known : a ∈ s.discovered) :
    p.visit depth s a = .ok s := by
  cases depth with
  | zero => rfl
  | succ depth => rw [visit, if_pos known]

/-- If visits of single items can be followed on the stack, so can a sequence of visits of which only
the items that were not entered in a state `s` before it stand there. -/
theorem Search.Open.drains_foldlM {depth : Nat} {path rest bs : List α} {s u : Search α}
    {r : Except α (Search α)}
    (keeps : ∀ b ∈ bs, ∀ u v : Search α, Search.Open p u path → p.visit depth u b = .ok v →
      Search.Open p v path ∧ b ∈ v.discovered)
    (each : ∀ b ∈ bs, ∀ (u : Search α) (rest : List α), Search.Open p u path → b ∉ u.discovered →
      p.Resumes rest r (p.visit depth u b) → p.Drains (b :: rest) u r)
    (opened : Search.Open p u path) (extends_s : Search.Extends p s u)
    (resumes : p.Resumes rest r (bs.foldlM (p.visit depth) u)) :
    p.Drains (bs.filter (· ∉ s.discovered) ++ rest) u r := by
  induction bs generalizing u with
  | nil => exact resumes
  | cons b bs ih =>
    have ih : ∀ {v : Search α}, Search.Open p v path → Search.Extends p s v →
        p.Resumes rest r (bs.foldlM (p.visit depth) v) →
        p.Drains (bs.filter (· ∉ s.discovered) ++ rest) v r :=
      ih (fun c mem => keeps c (List.mem_cons_of_mem b mem))
        (fun c mem => each c (List.mem_cons_of_mem b mem))
    rw [List.foldlM_cons] at resumes
    by_cases early : b ∈ s.discovered
    · rw [List.filter_cons_of_neg (by simpa using early)]
      rw [visit_of_mem_discovered (extends_s.discovered early)] at resumes
      exact ih opened extends_s resumes
    rw [List.filter_cons_of_pos (by simpa using early), List.cons_append]
    by_cases known : b ∈ u.discovered
    · -- A copy of `b` above this one was entered, and it is left by now.
      have left := (extends_s.left b known).resolve_left early
      rw [visit_of_mem_discovered known] at resumes
      exact .skip known left (ih opened extends_s resumes)
    · apply each b List.mem_cons_self u _ opened known
      cases step : p.visit depth u b with
      | error c =>
        rw [step] at resumes
        exact resumes
      | ok v =>
        rw [step] at resumes
        exact ih (keeps b List.mem_cons_self u v opened step).1
          (extends_s.trans (extends_of_visit step)) resumes

/-- The visit of an item that was not entered before is what the search does with it on the stack. -/
theorem Search.Open.drains_visit (closed : p.Closed) {depth : Nat} {path rest : List α} {a : α}
    {s : Search α} {r : Except α (Search α)} (opened : Search.Open p s path) (item : a ∈ p.items)
    (leads : ∀ b ∈ path, p.Leads b a) (enough : p.items.length < depth + path.length)
    (fresh : a ∉ s.discovered) (resumes : p.Resumes rest r (p.visit depth s a)) :
    p.Drains (a :: rest) s r := by
  induction depth generalizing s a path rest with
  | zero =>
    have := opened.length_le
    omega
  | succ depth ih =>
    rw [Precedence.visit, if_neg fresh] at resumes
    split_ifs at resumes with loop
    · obtain rfl : r = .error a := resumes
      exact .loop fresh loop
    have opened' := opened.enter fresh item
    have inside : ∀ b ∈ p.successors a, b ∈ p.items ∧ (∀ c ∈ a :: path, p.Leads c b) ∧
        p.items.length < depth + (a :: path).length := by
      intro b succ
      have pair := (p.mem_successors_iff a b).1 succ
      refine ⟨(closed _ pair).2, ?_, by rw [List.length_cons]; omega⟩
      exact List.forall_mem_cons.2 ⟨.single pair, fun c mem => (leads c mem).tail pair⟩
    have keeps : ∀ b ∈ p.successors a, ∀ u v : Search α, Search.Open p u (a :: path) →
        p.visit depth u b = .ok v → Search.Open p v (a :: path) ∧ b ∈ v.discovered := by
      intro b succ u v opened step
      obtain ⟨item, leads, enough⟩ := inside b succ
      exact opened.visit closed item leads enough step
    refine .enter fresh loop (opened'.drains_foldlM keeps ?_ (.refl p _) ?_)
    · intro b succ u rest opened fresh resumes
      obtain ⟨item, leads, enough⟩ := inside b succ
      exact ih opened item leads enough fresh resumes
    · -- When the successors are worked off, `a` is on top again and can be left.
      dsimp only at resumes
      cases walk : (p.successors a).foldlM (p.visit depth)
          { s with discovered := a :: s.discovered } with
      | error b =>
        rw [walk] at resumes
        exact resumes
      | ok u =>
        rw [walk] at resumes
        have opened'' := (opened'.foldlM keeps walk).1
        have distinct := List.nodup_cons.1 opened''.nodup
        refine .leave ((opened''.mem_discovered_iff a).2 (.inl List.mem_cons_self)) ?_ resumes
        exact fun left => distinct.1 (List.mem_append_right path left)

/-- The search with a stack through a list of items ends with what the visits of the items give. -/
theorem Search.Open.drainsAll (closed : p.Closed) {items : List α} (subset : items ⊆ p.items)
    {s : Search α} (opened : Search.Open p s []) :
    p.DrainsAll items s (items.foldlM (p.visit (p.items.length + 1)) s) := by
  induction items generalizing s with
  | nil => exact .nil
  | cons a items ih =>
    obtain ⟨item, others⟩ := List.cons_subset.1 subset
    rw [List.foldlM_cons]
    by_cases known : a ∈ s.discovered
    · rw [visit_of_mem_discovered known]
      exact .known known (ih others opened)
    have drains : p.Resumes [] (p.visit (p.items.length + 1) s a)
        (p.visit (p.items.length + 1) s a) → p.Drains [a] s (p.visit (p.items.length + 1) s a) :=
      opened.drains_visit closed item (fun b mem => absurd mem List.not_mem_nil) (by simp) known
    cases step : p.visit (p.items.length + 1) s a with
    | error b =>
      rw [step] at drains
      exact .failed known (drains rfl)
    | ok t =>
      rw [step] at drains
      refine .fresh known (drains .done) (ih others ?_)
      exact (opened.visit closed item (fun b mem => absurd mem List.not_mem_nil) (by simp) step).1

theorem drainsAll_search (closed : p.Closed) : p.DrainsAll p.items ⟨[], []⟩ p.search :=
  Search.Open.drainsAll closed (List.Subset.refl _)
    ⟨List.nodup_nil, fun a => by simp, List.nil_subset _, trivial⟩

/-! ## The search backwards -/

theorem visitBack?_of_unseen {seen stack : List α} (unseen : ∀ a ∈ stack, a ∉ seen) :
    (p.visitBack? seen stack).map Prod.fst = stack.head? := by
  cases stack with
  | nil => rfl
  | cons a rest => rw [visitBack?, if_neg (unseen a List.mem_cons_self), List.head?_cons]; rfl

/-- The second item visited from one start is its first predecessor that stands further on. -/
theorem secondVisit?_eq_misplaced? {seen order : List α} (nodup : order.Nodup)
    (apart : ∀ a ∈ order, a ∉ seen) : p.secondVisit? seen order = p.misplaced? seen order := by
  induction order generalizing seen with
  | nil => rfl
  | cons a rest ih =>
    obtain ⟨once, nodup⟩ := List.nodup_cons.1 nodup
    have next : p.secondVisit? (a :: seen) rest = p.misplaced? (a :: seen) rest := by
      refine ih nodup fun b mem => ?_
      rw [List.mem_cons, not_or]
      exact ⟨fun same => once (same ▸ mem), apart b (List.mem_cons_of_mem a mem)⟩
    have second : (p.visitBack? (a :: seen) ((p.predecessors a).filter (· ∉ a :: seen))).map
        Prod.fst = (p.predecessors a).find? (· ∉ a :: seen) :=
      (visitBack?_of_unseen (by simp)).trans (List.head?_filter ..)
    rw [secondVisit?, misplaced?, visitBack?, if_neg (apart a List.mem_cons_self), List.append_nil,
      ← second]
    cases back : p.visitBack? (a :: seen) ((p.predecessors a).filter (· ∉ a :: seen)) with
    | none =>
      simp only [back]
      exact next
    | some visited =>
      simp only [back]
      rfl

/-- The two searches with a stack end, with what sorting gives and with nothing else. -/
theorem stackSorts_iff (closed : p.Closed) (r : Except α (List α)) :
    p.StackSorts r ↔ p.sort = r := by
  have sorts : p.StackSorts p.sort := by
    have search := drainsAll_search closed
    rw [sort]
    cases run : p.search with
    | error a =>
      rw [run] at search
      exact .loop search
    | ok s =>
      rw [run] at search
      have second : p.secondVisit? [] s.finished = p.misplaced? [] s.finished :=
        secondVisit?_eq_misplaced? (finishing_of_search closed run).1 fun a _ => List.not_mem_nil
      rw [bind_ok]
      cases misplaced : p.misplaced? [] s.finished with
      | none => exact .sorted search (second.trans misplaced)
      | some a => exact .misplaced search (second.trans misplaced)
  exact ⟨fun sorts' => sorts.unique sorts', fun same => same ▸ sorts⟩

end Precedence

end FormulaFusion
