import FormulaFusion.Error

/-!
# Frontiers

The frontier of a formula is the list of the operands that it reads, each once, in the order in
which they were first met; an operand's slot is its position in this list.
-/

namespace FormulaFusion

/-- Distinct operands in the order in which they were first met. -/
structure Frontier where
  operands : List OperandId := []
  deriving DecidableEq, Repr

namespace Frontier

/-- The frontier before any operand was met. -/
def empty : Frontier := {}

/-- The slot of an operand that was met. -/
def slot? (f : Frontier) (id : OperandId) : Option Nat := f.operands.idxOf? id

/-- The frontier after meeting an operand, and the operand's slot. -/
def meet (f : Frontier) (id : OperandId) : Frontier × Nat :=
  match f.slot? id with
  | some slot => (f, slot)
  | none => (⟨f.operands ++ [id]⟩, f.operands.length)

/-- The frontier after meeting several operands in turn. -/
def meetAll (f : Frontier) (ids : List OperandId) : Frontier :=
  ids.foldl (fun f id => (f.meet id).1) f

/-- The frontier of a sequence of operands. -/
def ofList (ids : List OperandId) : Frontier := empty.meetAll ids

/-- The number of slots. -/
def size (f : Frontier) : Nat := f.operands.length

/-- Whether no operand was met. -/
def isEmpty (f : Frontier) : Bool := f.operands.isEmpty

theorem slot?_eq_none_iff (f : Frontier) (id : OperandId) :
    f.slot? id = none ↔ id ∉ f.operands := by
  simp [slot?]

/-- Meeting an operand adds it to the end unless it is there already. -/
theorem operands_meet (f : Frontier) (id : OperandId) :
    (f.meet id).1.operands = if id ∈ f.operands then f.operands else f.operands ++ [id] := by
  unfold meet
  by_cases known : id ∈ f.operands
  · cases found : f.slot? id with
    | none => exact absurd known ((f.slot?_eq_none_iff id).1 found)
    | some slot => rw [if_pos known]
  · rw [(f.slot?_eq_none_iff id).2 known, if_neg known]

end Frontier

end FormulaFusion
