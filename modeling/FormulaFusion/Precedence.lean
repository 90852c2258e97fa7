/-!
# Sorting by precedence

A `Precedence α` is a list of items and a list of pairs, each saying that its first item comes
before its second.  `Precedence.sort` lists the items so that every pair is respected, or names an
item that lies on a cycle.  It searches forward from every item in depth, each item being listed in
front of those that were finished before it; then it goes through this list and looks for an item
with a predecessor further on.  Neighbours are visited in the order in which their pairs stand in
the list.
-/

namespace FormulaFusion

/-- Items and pairs of items of which the first comes before the second. -/
structure Precedence (α : Type) where
  items : List α
  pairs : List (α × α)

namespace Precedence

variable {α : Type} [DecidableEq α]

/-- The items that come after `a`, in the order of their pairs. -/
def successors (p : Precedence α) (a : α) : List α :=
  (p.pairs.filter fun pair => pair.1 = a).map (·.2)

/-- The items that come before `a`, in the order of their pairs. -/
def predecessors (p : Precedence α) (a : α) : List α :=
  (p.pairs.filter fun pair => pair.2 = a).map (·.1)

/-- The state of the search in depth. -/
structure Search (α : Type) where
  /-- The items that the search has entered. -/
  discovered : List α
  /-- The items that the search has left, last first. -/
  finished : List α

/-- Enters an item, visits its successors, and leaves it.  An item before itself ends the search.
`depth` bounds the number of items entered and not yet left. -/
def visit (p : Precedence α) : Nat → Search α → α → Except α (Search α)
  | 0, search, _ => .ok search
  | depth + 1, search, a =>
    if a ∈ search.discovered then .ok search
    else if a ∈ p.successors a then .error a
    else
      let entered := { search with discovered := a :: search.discovered }
      ((p.successors a).foldlM (visit p depth) entered).map fun search =>
        { search with finished := a :: search.finished }

/-- The search from all items one after the other. -/
def search (p : Precedence α) : Except α (Search α) :=
  p.items.foldlM (p.visit (p.items.length + 1)) ⟨[], []⟩

/-- The first item of a list that has a predecessor neither before it nor equal to it gives the
first such predecessor; `placed` are the items before the list. -/
def misplaced? (p : Precedence α) (placed : List α) : List α → Option α
  | [] => none
  | a :: rest =>
    ((p.predecessors a).find? fun b => b ∉ a :: placed).or (p.misplaced? (a :: placed) rest)

/-- The items in an order that respects every pair, or an item on a cycle. -/
def sort (p : Precedence α) : Except α (List α) :=
  p.search.bind fun search =>
    match p.misplaced? [] search.finished with
    | none => .ok search.finished
    | some a => .error a

theorem mem_successors_iff (p : Precedence α) (a b : α) :
    b ∈ p.successors a ↔ (a, b) ∈ p.pairs := by
  simp [successors]

theorem mem_predecessors_iff (p : Precedence α) (a b : α) :
    b ∈ p.predecessors a ↔ (b, a) ∈ p.pairs := by
  simp [predecessors]

end Precedence

end FormulaFusion
