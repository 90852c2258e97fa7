import FormulaFusion.Proofs.Frontier
import FormulaFusion.Proofs.Lists

/-!
# Frontiers with an index

A frontier finds the slot of an operand by searching its list.  An indexed frontier keeps every slot
a second time, in a map from operands to slots, and looks for operands only there.  List and map
stay in agreement (`IndexedFrontier.Agrees.meet`), so that the map answers what a search would
(`IndexedFrontier.Agrees.index_eq_slot?`) and an indexed frontier does what a frontier does, step by
step (`IndexedFrontier.Agrees.meet_eq`).  After any sequence of operands it lists them once each, in
the order of their first appearance, and each of them has got its place in this order as its slot
(`IndexedFrontier.meetAll_empty`).
-/

namespace FormulaFusion

instance : Hashable OperandId := ⟨fun id => hash id.index⟩

/-- Distinct operands in the order in which they were first met, and a map from them to their slots.
-/
structure IndexedFrontier where
  operands : List OperandId := []
  index : Std.HashMap OperandId Nat := ∅

namespace IndexedFrontier

/-- The indexed frontier before any operand was met. -/
def empty : IndexedFrontier := {}

/-- The frontier without its index. -/
def toFrontier (t : IndexedFrontier) : Frontier := ⟨t.operands⟩

/-- The indexed frontier after meeting an operand, and the operand's slot. -/
def meet (t : IndexedFrontier) (id : OperandId) : IndexedFrontier × Nat :=
  match t.index[id]? with
  | some slot => (t, slot)
  | none => (⟨t.operands ++ [id], t.index.insert id t.operands.length⟩, t.operands.length)

/-- The indexed frontier after meeting several operands in turn, and their slots. -/
def meetAll (t : IndexedFrontier) : List OperandId → IndexedFrontier × List Nat
  | [] => (t, [])
  | id :: rest =>
    let (next, slot) := t.meet id
    let (last, slots) := next.meetAll rest
    (last, slot :: slots)

/-- The map sends an operand to a slot exactly if the list has the operand there. -/
def Agrees (t : IndexedFrontier) : Prop :=
  ∀ (id : OperandId) (slot : Nat), t.index[id]? = some slot ↔ t.operands[slot]? = some id

theorem agrees_empty : empty.Agrees := by
  intro id slot
  simp [empty]

namespace Agrees

variable {t : IndexedFrontier} (agrees : t.Agrees)

include agrees

/-- An operand has no second place: both would be its slot in the map. -/
theorem nodup : t.operands.Nodup := by
  rw [List.nodup_iff_getElem?_ne_getElem?]
  intro i j before inside same
  have first := (agrees t.operands[j] i).2 (by rw [same, List.getElem?_eq_getElem inside])
  have second := (agrees t.operands[j] j).2 (List.getElem?_eq_getElem inside)
  have := Option.some.inj (first.symm.trans second)
  omega

theorem index_eq_none_iff (id : OperandId) : t.index[id]? = none ↔ id ∉ t.operands := by
  rw [Option.eq_none_iff_forall_ne_some, List.mem_iff_getElem?, not_exists]
  exact forall_congr' fun slot => not_congr (agrees id slot)

/-- The map answers what a search of the list would. -/
theorem index_eq_slot? (id : OperandId) : t.index[id]? = t.toFrontier.slot? id := by
  by_cases met : id ∈ t.operands
  · rw [Frontier.slot?_eq_some_idxOf (f := t.toFrontier) met, agrees]
    exact List.getElem?_idxOf met
  · rw [(agrees.index_eq_none_iff id).2 met, eq_comm]
    exact (t.toFrontier.slot?_eq_none_iff id).2 met

/-- Meeting an operand keeps list and map in agreement. -/
theorem meet (id : OperandId) : (t.meet id).1.Agrees := by
  unfold IndexedFrontier.meet
  cases found : t.index[id]? with
  | some slot => exact agrees
  | none =>
    -- The new operand had no place so far, and no other one gets the last place.
    intro a slot
    dsimp only
    rw [Std.HashMap.getElem?_insert, getElem?_append_singleton_eq_some_iff, ← agrees a slot]
    by_cases same : id = a
    · subst same
      simp [found, eq_comm]
    · simp [same, Ne.symm same]

/-- Meeting an operand does what it does without an index. -/
theorem meet_eq (id : OperandId) :
    (t.meet id).1.toFrontier = (t.toFrontier.meet id).1 ∧
      (t.meet id).2 = (t.toFrontier.meet id).2 := by
  rw [IndexedFrontier.meet, Frontier.meet, ← agrees.index_eq_slot? id]
  cases t.index[id]? with
  | some slot => exact ⟨rfl, rfl⟩
  | none => exact ⟨rfl, rfl⟩

/-- Meeting several operands in turn keeps the agreement, does what it does without an index, and
gives each of them its place in the end as its slot. -/
theorem meetAll (ids : List OperandId) :
    (t.meetAll ids).1.Agrees ∧ (t.meetAll ids).1.toFrontier = t.toFrontier.meetAll ids ∧
      (t.meetAll ids).2 = ids.map (t.toFrontier.meetAll ids).operands.idxOf := by
  induction ids generalizing t with
  | nil => exact ⟨agrees, rfl, rfl⟩
  | cons id rest ih =>
    obtain ⟨next, slot⟩ := agrees.meet_eq id
    obtain ⟨kept, last, slots⟩ := ih (agrees.meet id)
    rw [next, ← Frontier.operands_meetAll_cons] at last slots
    refine ⟨kept, last, ?_⟩
    have place : (t.meet id).2 = (t.toFrontier.meetAll (id :: rest)).operands.idxOf id := by
      rw [slot, Frontier.meet_slot, Frontier.operands_meetAll_cons,
        Frontier.idxOf_meetAll (Frontier.mem_operands_meet _ _)]
    rw [List.map_cons, ← place, ← slots]
    rfl

end Agrees

/-- After any sequence of operands, list and map agree and nothing is listed twice; the list is the
sequence without its repetitions, and the slots that were given are the places in it.  An operand
that is met again gets the slot that it got before.  A frontier without an index gives the same. -/
theorem meetAll_empty (ids : List OperandId) :
    (empty.meetAll ids).1.Agrees ∧ (empty.meetAll ids).1.operands.Nodup ∧
      (empty.meetAll ids).1.operands = ids.eraseDups ∧
      (empty.meetAll ids).2 = ids.map ids.eraseDups.idxOf ∧
      (∀ id between, ((empty.meetAll (ids ++ id :: between)).1.meet id).2 =
        ((empty.meetAll ids).1.meet id).2) ∧
      (empty.meetAll ids).1.toFrontier = Frontier.ofList ids ∧
      ∀ id : OperandId, (empty.meetAll ids).1.index[id]? = (Frontier.ofList ids).slot? id ∧
        ((empty.meetAll ids).1.meet id).2 = ((Frontier.ofList ids).meet id).2 := by
  have runs : ∀ ids, (empty.meetAll ids).1.Agrees ∧
      (empty.meetAll ids).1.toFrontier = Frontier.ofList ids ∧
      (empty.meetAll ids).2 = ids.map (Frontier.ofList ids).operands.idxOf := agrees_empty.meetAll
  have slot : ∀ ids id, ((empty.meetAll ids).1.meet id).2 = ((Frontier.ofList ids).meet id).2 := by
    intro ids id
    rw [((runs ids).1.meet_eq id).2, (runs ids).2.1]
  obtain ⟨agrees, same, slots⟩ := runs ids
  refine ⟨agrees, agrees.nodup, ?_, ?_, fun id between => ?_, same, fun id => ⟨?_, slot ids id⟩⟩
  · rw [← Frontier.operands_ofList, ← same]
    rfl
  · rw [slots, Frontier.operands_ofList]
  · have again := (Frontier.ofList ids).meet_slot_again id between
    rw [slot, slot, ← again, Frontier.ofList, Frontier.meetAll_append]
    rfl
  · rw [agrees.index_eq_slot?, same]

end IndexedFrontier

end FormulaFusion
