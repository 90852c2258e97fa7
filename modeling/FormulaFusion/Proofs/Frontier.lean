import Mathlib.Data.List.Dedup
import FormulaFusion.Frontier

/-!
# Frontiers list distinct operands in the order of their first appearance

The frontier of a sequence is the sequence without its repetitions (`Frontier.operands_ofList`), so
it has no duplicates and the operands of the sequence as members, and the slot of an operand is its
position, which it keeps when more operands are met (`Frontier.meet_slot_again`).
-/

namespace FormulaFusion

namespace Frontier

theorem operands_meetAll_cons (f : Frontier) (id : OperandId) (rest : List OperandId) :
    f.meetAll (id :: rest) = (f.meet id).1.meetAll rest := rfl

/-- Meeting several operands adds those that are new, each once, in the order in which they come. -/
theorem operands_meetAll (f : Frontier) (ids : List OperandId) :
    (f.meetAll ids).operands = f.operands ++ (ids.filter fun id => id ∉ f.operands).eraseDups := by
  induction ids generalizing f with
  | nil => simp [meetAll]
  | cons id rest ih =>
    rw [operands_meetAll_cons, ih, operands_meet]
    by_cases known : id ∈ f.operands
    · rw [if_pos known, List.filter_cons_of_neg (by simpa using known)]
    · rw [if_neg known, List.filter_cons_of_pos (by simpa using known), List.eraseDups_cons,
        List.append_assoc, List.singleton_append, List.filter_filter]
      congr 3
      apply List.filter_congr
      intro other _
      by_cases same : other = id <;> simp [same, known]

/-- The frontier of a sequence is the sequence without its repetitions. -/
theorem operands_ofList (ids : List OperandId) : (ofList ids).operands = ids.eraseDups := by
  rw [ofList, operands_meetAll]
  simp [empty]

theorem mem_operands_ofList_iff (ids : List OperandId) (id : OperandId) :
    id ∈ (ofList ids).operands ↔ id ∈ ids := by
  rw [operands_ofList, List.mem_eraseDups]

theorem nodup_operands_meetAll (f : Frontier) (ids : List OperandId) (distinct : f.operands.Nodup) :
    (f.meetAll ids).operands.Nodup := by
  induction ids generalizing f with
  | nil => exact distinct
  | cons id rest ih =>
    rw [operands_meetAll_cons]
    apply ih _
    rw [operands_meet]
    split_ifs with known
    · exact distinct
    · refine List.nodup_append.2 ⟨distinct, List.nodup_singleton id, ?_⟩
      intro a mem b mem' same
      rw [List.mem_singleton.1 mem'] at same
      exact known (same ▸ mem)

theorem nodup_operands_ofList (ids : List OperandId) : (ofList ids).operands.Nodup :=
  nodup_operands_meetAll empty ids List.nodup_nil

/-- The slot of an operand that was met is its position. -/
theorem slot?_eq_some_idxOf {f : Frontier} {id : OperandId} (met : id ∈ f.operands) :
    f.slot? id = some (f.operands.idxOf id) := by
  cases found : f.slot? id with
  | none => exact absurd met ((f.slot?_eq_none_iff id).1 found)
  | some slot =>
    unfold slot? at found
    rw [List.idxOf_eq_getD_idxOf?, found, Option.getD_some]

/-! ## Slots are kept -/

theorem mem_operands_meet (f : Frontier) (id : OperandId) : id ∈ (f.meet id).1.operands := by
  rw [operands_meet]
  split_ifs with met
  · exact met
  · simp

/-- The slot that an operand gets when it is met is its position from then on. -/
theorem meet_slot (f : Frontier) (id : OperandId) :
    (f.meet id).2 = (f.meet id).1.operands.idxOf id := by
  by_cases met : id ∈ f.operands
  · rw [meet, slot?_eq_some_idxOf met]
  · rw [meet, (f.slot?_eq_none_iff id).2 met, List.idxOf_append, if_neg met]
    simp

/-- Positions do not change when more operands are met. -/
theorem idxOf_meetAll {f : Frontier} {id : OperandId} (met : id ∈ f.operands)
    (ids : List OperandId) : (f.meetAll ids).operands.idxOf id = f.operands.idxOf id := by
  rw [operands_meetAll, List.idxOf_append_of_mem met]

theorem meetAll_append (f : Frontier) (ids more : List OperandId) :
    f.meetAll (ids ++ more) = (f.meetAll ids).meetAll more :=
  List.foldl_append

/-- An operand that is met again gets the slot that it got before, whatever was met in between. -/
theorem meet_slot_again (f : Frontier) (id : OperandId) (between : List OperandId) :
    (((f.meet id).1.meetAll between).meet id).2 = (f.meet id).2 := by
  have met : id ∈ ((f.meet id).1.meetAll between).operands := by
    rw [operands_meetAll]
    exact List.mem_append_left _ (f.mem_operands_meet id)
  rw [meet_slot, operands_meet, if_pos met, idxOf_meetAll (f.mem_operands_meet id), meet_slot]

end Frontier

end FormulaFusion
