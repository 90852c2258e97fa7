import Mathlib.Data.Finset.Card
import FormulaFusion.Proofs.Formula.RoundTrip

/-!
# What the questions about slot numbers mean

The text of a formula is cut at its slots (`Formula.stretches`), so that the slots stand in it in
the order of `Formula.writtenSlots`.  A formula is dense exactly if the distinct ones among them,
taken where they first stand, are numbered `0`, `1`, … without a gap (`Formula.isDense_iff`).  The
slot bound is never below the number of distinct slots and equals it exactly if no number is
skipped, whatever their order (`Formula.card_slots_eq_iff`).
-/

namespace FormulaFusion

namespace Formula

/-! ## Slots in the text -/

/-- A stretch of a formula's text: the spelling of a slot, or what stands between slots. -/
inductive Stretch where
  | between (chars : List Char)
  | slot (index : Nat)
  deriving DecidableEq, Repr

/-- The spelling of a stretch. -/
def Stretch.text : Stretch → List Char
  | between chars => chars
  | slot index => '@' :: Nat.toDigits 10 index

/-- The number of the slot that a stretch spells. -/
def Stretch.slot? : Stretch → Option Nat
  | between _ => none
  | slot index => some index

mutual

/-- The text of a formula, cut at its slots. -/
def stretches : Formula Nat → List Stretch
  | literal value => [.between value.text]
  | slot index => [.slot index]
  | call name args => .between (name.toList ++ ['(']) :: stretchesOfAll args ++ [.between [')']]
  | list items => .between ['['] :: stretchesOfAll items ++ [.between [']']]

/-- The text of several formulas, cut at their slots. -/
def stretchesOfAll : List (Formula Nat) → List Stretch
  | [] => []
  | [formula] => formula.stretches
  | formula :: next :: rest =>
    formula.stretches ++ .between [','] :: stretchesOfAll (next :: rest)

end

/-- The slots in the order in which they stand in the text, with repetitions. -/
def writtenSlots (formula : Formula Nat) : List Nat := formula.stretches.filterMap Stretch.slot?

theorem textOfAll_eq_flatMap {formulas : List (Formula Nat)}
    (each : ∀ formula ∈ formulas, formula.text = formula.stretches.flatMap Stretch.text) :
    textOfAll formulas = (stretchesOfAll formulas).flatMap Stretch.text := by
  induction formulas with
  | nil => rfl
  | cons formula rest ih =>
    have first := each formula List.mem_cons_self
    have others := ih fun formula mem => each formula (List.mem_cons_of_mem _ mem)
    cases rest with
    | nil => rw [textOfAll, stretchesOfAll, first]
    | cons next rest =>
      rw [textOfAll, stretchesOfAll, List.flatMap_append, List.flatMap_cons, ← others, ← first]
      rfl

/-- The stretches of a formula make up its text. -/
theorem text_eq_flatMap_stretches (formula : Formula Nat) :
    formula.text = formula.stretches.flatMap Stretch.text := by
  induction formula using induction with
  | literal value => simp [text, stretches, Stretch.text]
  | slot index => simp [text, stretches, Stretch.text]
  | call name args ih =>
    rw [text, stretches, textOfAll_eq_flatMap ih]
    simp [Stretch.text]
  | list items ih =>
    rw [text, stretches, textOfAll_eq_flatMap ih]
    simp [Stretch.text]

theorem filterMap_stretchesOfAll {formulas : List (Formula Nat)}
    (each : ∀ formula ∈ formulas, formula.writtenSlots = formula.slots) :
    (stretchesOfAll formulas).filterMap Stretch.slot? = slotsOfAll formulas := by
  induction formulas with
  | nil => rfl
  | cons formula rest ih =>
    have first := each formula List.mem_cons_self
    have others := ih fun formula mem => each formula (List.mem_cons_of_mem _ mem)
    cases rest with
    | nil =>
      rw [stretchesOfAll, slotsOfAll, slotsOfAll, List.append_nil]
      exact first
    | cons next rest =>
      rw [stretchesOfAll, slotsOfAll, List.filterMap_append, List.filterMap_cons_none rfl, others]
      exact congrArg (· ++ _) first

/-- Collecting the slots of a formula lists them as they stand in its text. -/
theorem writtenSlots_eq_slots (formula : Formula Nat) : formula.writtenSlots = formula.slots := by
  induction formula using induction with
  | literal value => simp [writtenSlots, stretches, slots, Stretch.slot?]
  | slot index => simp [writtenSlots, stretches, slots, Stretch.slot?]
  | call name args ih =>
    rw [slots, ← filterMap_stretchesOfAll ih]
    simp [writtenSlots, stretches, Stretch.slot?, List.filterMap_cons]
  | list items ih =>
    rw [slots, ← filterMap_stretchesOfAll ih]
    simp [writtenSlots, stretches, Stretch.slot?, List.filterMap_cons]

/-! ## Dense slots -/

/-- While a scan expects the number `next`, it accepts what is left exactly if the numbers that are
still new, taken where they first appear, count up from `next`. -/
theorem countsUpFrom_eq_true_iff (next : Nat) (indices : List Nat) :
    countsUpFrom next indices = true ↔
      ∃ count, (indices.filter (next ≤ ·)).eraseDups = List.range' next count := by
  induction indices generalizing next with
  | nil => exact ⟨fun _ => ⟨0, rfl⟩, fun _ => rfl⟩
  | cons index rest ih =>
    rw [countsUpFrom]
    rcases Nat.lt_trichotomy index next with known | rfl | skipped
    · rw [if_neg (by omega), decide_eq_true known, Bool.true_and, ih,
        List.filter_cons_of_neg (by simpa using known)]
    · -- The expected number is new; only larger ones are new after it.
      have larger : (rest.filter (index ≤ ·)).filter (fun b => !b == index) =
          rest.filter (index + 1 ≤ ·) := by
        rw [List.filter_filter]
        apply List.filter_congr
        intro b _
        grind
      rw [if_pos rfl, ih, List.filter_cons_of_pos (by simp), List.eraseDups_cons, larger]
      constructor
      · rintro ⟨count, counts⟩
        exact ⟨count + 1, by rw [counts, List.range'_succ]⟩
      · rintro ⟨count, counts⟩
        obtain ⟨-, -, others⟩ := List.range'_eq_cons_iff.1 counts.symm
        exact ⟨count - 1, others⟩
    · rw [if_neg (by omega), decide_eq_false (by omega), Bool.false_and,
        List.filter_cons_of_pos (by simpa using skipped.le), List.eraseDups_cons]
      refine ⟨nofun, ?_⟩
      rintro ⟨count, counts⟩
      obtain ⟨same, -⟩ := List.range'_eq_cons_iff.1 counts.symm
      omega

/-- A formula is dense exactly if its distinct slots, in the order in which they first stand in the
text, are `0`, `1`, … -/
theorem isDense_iff (formula : Formula Nat) :
    formula.isDense = true ↔ ∃ count, formula.writtenSlots.eraseDups = List.range count := by
  rw [isDense, countsUpFrom_eq_true_iff, writtenSlots_eq_slots]
  simp [List.range_eq_range']

/-- The slots of a dense formula are all numbers below some count. -/
theorem exists_slots_eq_range {formula : Formula Nat} (dense : formula.isDense = true) :
    ∃ count, formula.slots.toFinset = Finset.range count := by
  obtain ⟨count, first⟩ := formula.isDense_iff.1 dense
  refine ⟨count, Finset.ext fun index => ?_⟩
  rw [List.mem_toFinset, Finset.mem_range, ← writtenSlots_eq_slots, ← List.mem_eraseDups, first,
    List.mem_range]

/-! ## The slot bound -/

/-- Slots below the largest 64-bit word have a bound. -/
theorem exists_slotBound {formula : Formula Nat}
    (small : ∀ index ∈ formula.slots, index < 2 ^ 64 - 1) :
    ∃ bound, formula.slotBound = .ok bound := by
  rw [slotBound]
  cases found : formula.slots.max? with
  | none => exact ⟨0, rfl⟩
  | some largest =>
    have := small largest (List.max?_mem found)
    exact ⟨largest + 1, if_pos (by rw [Nat.pow_eq]; omega)⟩

section Bounded

variable {formula : Formula Nat} {bound : Nat} (bounded : formula.slotBound = .ok bound)

include bounded

/-- The slot bound is the least number above all slots. -/
theorem slotBound_le_iff (above : Nat) :
    bound ≤ above ↔ ∀ index ∈ formula.slots, index < above := by
  rw [slotBound] at bounded
  cases found : formula.slots.max? with
  | none =>
    rw [found] at bounded
    obtain rfl : 0 = bound := Except.ok.inj bounded
    simp [List.max?_eq_none_iff.1 found]
  | some largest =>
    obtain ⟨mem, largest_le⟩ := List.max?_eq_some_iff.1 found
    simp only [found] at bounded
    split_ifs at bounded
    obtain rfl : largest + 1 = bound := Except.ok.inj bounded
    refine ⟨fun enough index mem => ?_, fun all => all largest mem⟩
    have := largest_le index mem
    omega

theorem slots_subset_range : formula.slots.toFinset ⊆ Finset.range bound := by
  intro index mem
  have below := (slotBound_le_iff bounded bound).1 le_rfl
  exact Finset.mem_range.2 (below index (List.mem_toFinset.1 mem))

/-- There are at most as many distinct slots as the bound says. -/
theorem card_slots_le : formula.slots.toFinset.card ≤ bound := by
  simpa using Finset.card_le_card (slots_subset_range bounded)

/-- There are as many distinct slots as the bound says exactly if no number is skipped. -/
theorem card_slots_eq_iff :
    formula.slots.toFinset.card = bound ↔ ∃ count, formula.slots.toFinset = Finset.range count := by
  constructor
  · intro full
    refine ⟨bound, Finset.eq_of_subset_of_card_le (slots_subset_range bounded) ?_⟩
    rw [Finset.card_range, full]
  · rintro ⟨count, all⟩
    have below : bound ≤ count := by
      refine (slotBound_le_iff bounded count).2 fun index mem => ?_
      rwa [← Finset.mem_range, ← all, List.mem_toFinset]
    have le := card_slots_le bounded
    rw [all, Finset.card_range] at le ⊢
    omega

end Bounded

/-- The text of a formula is made up of its slots and what stands between them.  The formula is
dense exactly if its distinct slots, in the order in which they first stand there, are `0`, `1`, …,
and its slot bound is at least their number, with equality exactly if they are all numbers below
some count. -/
theorem isDense_and_slotBound {formula : Formula Nat}
    (small : ∀ index ∈ formula.slots, index < 2 ^ 64 - 1) :
    formula.text = formula.stretches.flatMap Stretch.text ∧
      (formula.isDense = true ↔ ∃ count, formula.writtenSlots.eraseDups = List.range count) ∧
      ∃ bound, formula.slotBound = .ok bound ∧ formula.slots.toFinset.card ≤ bound ∧
        (formula.slots.toFinset.card = bound ↔
          ∃ count, formula.slots.toFinset = Finset.range count) ∧
        (formula.isDense = true → formula.slots.toFinset.card = bound) := by
  obtain ⟨bound, bounded⟩ := exists_slotBound small
  refine ⟨formula.text_eq_flatMap_stretches, formula.isDense_iff, bound, bounded,
    card_slots_le bounded, card_slots_eq_iff bounded, fun dense => ?_⟩
  exact (card_slots_eq_iff bounded).2 (exists_slots_eq_range dense)

/-- A formula with a repeated slot inside a list. -/
def repeatedSlot : Formula Nat :=
  call "add" [slot 0, list [slot 1, literal (.string "@7"), call "neg" [slot 0]]]

theorem isDense_and_slotBound_repeatedSlot :
    (∀ index ∈ repeatedSlot.slots, index < 2 ^ 64 - 1) ∧ repeatedSlot.isDense = true ∧
      repeatedSlot.slotBound = .ok 2 ∧ repeatedSlot.slots.toFinset.card = 2 := by
  have small : ∀ index ∈ repeatedSlot.slots, index < 2 ^ 64 - 1 := by decide
  obtain ⟨-, dense_iff, bound, bounded, -, -, counts⟩ := isDense_and_slotBound small
  have dense : repeatedSlot.isDense = true := dense_iff.2 ⟨2, by decide⟩
  have two : repeatedSlot.slots.toFinset.card = 2 := by decide
  refine ⟨small, dense, ?_, two⟩
  rw [bounded, ← counts dense, two]

end Formula

end FormulaFusion
