import FormulaFusion.Error
import FormulaFusion.Literal

/-!
# Formulas

A `Formula σ` is built from literals, slots labelled by `σ`, calls and lists.  While a graph is
expanded the slots are labelled by operands; in written formulas they are numbers.  `Formula.slots`
lists the labels in reading order, `Formula.relabel` changes them, and `Formula.text` is the
spelling of a formula with numbered slots.
-/

namespace FormulaFusion

/-- A formula with slots labelled by `σ`. -/
inductive Formula (σ : Type) where
  | literal (value : Literal)
  | slot (label : σ)
  | call (name : String) (args : List (Formula σ))
  | list (items : List (Formula σ))
  deriving Repr

namespace Formula

variable {σ τ : Type}

/-! ## Slots -/

mutual

/-- The labels of the slots in reading order, with repetitions. -/
def slots : Formula σ → List σ
  | literal _ => []
  | slot label => [label]
  | call _ args => slotsOfAll args
  | list items => slotsOfAll items

/-- The labels of the slots of several formulas in reading order. -/
def slotsOfAll : List (Formula σ) → List σ
  | [] => []
  | formula :: rest => formula.slots ++ slotsOfAll rest

end

mutual

/-- The same formula with its slots relabelled. -/
def relabel (f : σ → τ) : Formula σ → Formula τ
  | literal value => literal value
  | slot label => slot (f label)
  | call name args => call name (relabelAll f args)
  | list items => list (relabelAll f items)

/-- Several formulas with their slots relabelled. -/
def relabelAll (f : σ → τ) : List (Formula σ) → List (Formula τ)
  | [] => []
  | formula :: rest => formula.relabel f :: relabelAll f rest

end

theorem slotsOfAll_eq_flatMap (formulas : List (Formula σ)) :
    slotsOfAll formulas = formulas.flatMap slots := by
  induction formulas with
  | nil => rfl
  | cons formula rest ih => simp [slotsOfAll, ih]

theorem relabelAll_eq_map (f : σ → τ) (formulas : List (Formula σ)) :
    relabelAll f formulas = formulas.map (relabel f) := by
  induction formulas with
  | nil => rfl
  | cons formula rest ih => simp [relabelAll, ih]

/-! ## Spelling -/

mutual

/-- The spelling of a formula. -/
def text : Formula Nat → List Char
  | literal value => value.text
  | slot index => '@' :: Nat.toDigits 10 index
  | call name args => name.toList ++ '(' :: textOfAll args ++ [')']
  | list items => '[' :: textOfAll items ++ [']']

/-- The spelling of several formulas, separated by commas. -/
def textOfAll : List (Formula Nat) → List Char
  | [] => []
  | [formula] => formula.text
  | formula :: next :: rest => formula.text ++ ',' :: textOfAll (next :: rest)

end

/-- The spelling of a formula as a string. -/
def render (formula : Formula Nat) : String := String.ofList formula.text

/-! ## Numbered slots -/

/-- Whether the slot numbers not below `next` first appear in the order `next`, `next + 1`, … -/
def countsUpFrom (next : Nat) : List Nat → Bool
  | [] => true
  | index :: rest =>
    if index = next then countsUpFrom (next + 1) rest
    else decide (index < next) && countsUpFrom next rest

/-- Whether the slots are numbered `0`, `1`, … in the order in which they first appear. -/
def isDense (formula : Formula Nat) : Bool := countsUpFrom 0 formula.slots

/-- The least number of values that reaches every slot.  The number after the largest 64-bit word
cannot be computed. -/
def slotBound (formula : Formula Nat) : Except Abort Nat :=
  match formula.slots.max? with
  | none => .ok 0
  | some largest =>
    if largest + 1 < Nat.pow 2 64 then .ok (largest + 1) else .error .additionOverflow

end Formula

end FormulaFusion
