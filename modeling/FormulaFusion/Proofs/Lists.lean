import Mathlib.Data.List.Forall2

/-!
# Lists

What a list with a new last member holds at a position, and lists whose members are related one by
one.
-/

universe u

namespace FormulaFusion

/-- What a list with a new last item holds at a position. -/
theorem getElem?_append_singleton_eq_some_iff {α : Type} (items : List α) (last item : α) (q : Nat) :
    (items ++ [last])[q]? = some item ↔
      items[q]? = some item ∨ q = items.length ∧ item = last := by
  rcases Nat.lt_trichotomy q items.length with below | here | above
  · rw [List.getElem?_append_left below]
    refine (or_iff_left ?_).symm
    rintro ⟨here, -⟩
    omega
  · subst here
    simp [eq_comm]
  · rw [List.getElem?_eq_none (by simp; omega), List.getElem?_eq_none (by omega)]
    simp only [reduceCtorEq, false_or, false_iff, not_and]
    omega

theorem flatMap_map_congr {α β : Type} {f : α → α} {g : α → List β} {items : List α}
    (each : ∀ item ∈ items, g (f item) = g item) : (items.map f).flatMap g = items.flatMap g := by
  rw [List.flatMap_map, List.flatMap_congr each]

/-! ## Related members -/

theorem exists_right_of_forall₂ {α β : Type*} {R : α → β → Prop} {as : List α} {bs : List β}
    (pairs : List.Forall₂ R as bs) {a : α} (mem : a ∈ as) : ∃ b ∈ bs, R a b := by
  induction pairs with
  | nil => cases mem
  | cons related _ ih =>
    rcases List.mem_cons.1 mem with rfl | mem
    · exact ⟨_, List.mem_cons_self, related⟩
    · obtain ⟨b, mem', related'⟩ := ih mem
      exact ⟨b, List.mem_cons_of_mem _ mem', related'⟩

theorem exists_left_of_forall₂ {α β : Type} {R : α → β → Prop} {as : List α} {bs : List β}
    (pairs : List.Forall₂ R as bs) {b : β} (mem : b ∈ bs) : ∃ a ∈ as, R a b :=
  exists_right_of_forall₂ pairs.flip mem

theorem forall₂_triple_iff {α : Type} {β : Type u} {R : α → β → Prop} {a b c : α} {values : List β} :
    List.Forall₂ R [a, b, c] values ↔
      ∃ x y z, values = [x, y, z] ∧ R a x ∧ R b y ∧ R c z := by
  simp only [List.forall₂_cons_left_iff, List.forall₂_nil_left_iff]
  constructor
  · rintro ⟨x, _, first, ⟨y, _, second, ⟨z, _, third, rfl, rfl⟩, rfl⟩, rfl⟩
    exact ⟨x, y, z, rfl, first, second, third⟩
  · rintro ⟨x, y, z, rfl, first, second, third⟩
    exact ⟨x, _, first, ⟨y, _, second, ⟨z, _, third, rfl, rfl⟩, rfl⟩, rfl⟩

/-- What holds of the members of a list at all its positions holds of the list. -/
theorem forall₂_of_range {α β : Type} {R : α → β → Prop} {items : List α} {args : List β}
    (related : List.Forall₂ (fun index arg => ∃ item, items[index]? = some item ∧ R item arg)
      (List.range items.length) args) : List.Forall₂ R items args := by
  rw [List.forall₂_iff_get] at related ⊢
  obtain ⟨length, each⟩ := related
  rw [List.length_range] at length
  refine ⟨length, fun index inside inside' => ?_⟩
  obtain ⟨item, found, holds⟩ := each index (by simpa using inside) inside'
  simp only [List.get_eq_getElem, List.getElem_range] at found holds ⊢
  rw [List.getElem?_eq_getElem inside, Option.some_inj] at found
  exact found ▸ holds

/-- Where every member is related to one thing only, a list is related to one list only. -/
theorem forall₂_iff_eq_map {α β γ : Type} {R : α → γ → Prop} {f : β → γ} {as : List α} {bs : List β}
    (each : List.Forall₂ (fun a b => ∀ c, R a c ↔ c = f b) as bs) (cs : List γ) :
    List.Forall₂ R as cs ↔ cs = bs.map f := by
  induction each generalizing cs with
  | nil => exact List.forall₂_nil_left_iff
  | @cons a b as bs only _ ih =>
    rw [List.forall₂_cons_left_iff, List.map_cons]
    simp only [only, ih]
    constructor
    · rintro ⟨_, _, rfl, rfl, rfl⟩
      rfl
    · rintro rfl
      exact ⟨_, _, rfl, rfl, rfl⟩

end FormulaFusion
