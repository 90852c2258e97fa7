import FormulaFusion.Proofs.Lists

/-!
# Success of computations that may fail

When a chain of steps in `Except` succeeds, and with what: `bind_eq_ok_iff` and `map_eq_ok_iff` take
one step off a chain, `mapM_eq_ok_iff` turns a list of steps into a list of results, and `anyM_eq_ok`
and `allM_eq_ok` give the answer of a search in which every single question has one
(`anyM_eq_true_iff` and `allM_eq_false_iff`: where it comes from).  A chain fails where one of its
steps does (`bind_eq_error_iff`, `map_eq_error_iff`).
-/

namespace FormulaFusion

variable {ε α β : Type}

@[simp]
theorem bind_ok (a : α) (f : α → Except ε β) : (Except.ok a).bind f = f a := rfl

@[simp]
theorem bind_error (e : ε) (f : α → Except ε β) : (Except.error e).bind f = .error e := rfl

@[simp]
theorem map_ok (a : α) (f : α → β) : (Except.ok a : Except ε α).map f = .ok (f a) := rfl

theorem map_map {γ : Type} (x : Except ε α) (f : α → β) (g : β → γ) :
    (x.map f).map g = x.map fun a => g (f a) := by
  cases x <;> rfl

theorem bind_eq_ok_iff (x : Except ε α) (f : α → Except ε β) (b : β) :
    x.bind f = .ok b ↔ ∃ a, x = .ok a ∧ f a = .ok b := by
  cases x with
  | error e => simp [Except.bind]
  | ok a => simp

theorem map_eq_ok_iff (x : Except ε α) (f : α → β) (b : β) :
    x.map f = .ok b ↔ ∃ a, x = .ok a ∧ f a = b := by
  cases x with
  | error e => simp [Except.map]
  | ok a => simp

theorem bind_eq_error_iff (x : Except ε α) (f : α → Except ε β) (e : ε) :
    x.bind f = .error e ↔ x = .error e ∨ ∃ a, x = .ok a ∧ f a = .error e := by
  cases x with
  | error e' => simp [Except.bind]
  | ok a => simp

theorem map_eq_error_iff (x : Except ε α) (f : α → β) (e : ε) :
    x.map f = .error e ↔ x = .error e := by
  cases x with
  | error e' => simp [Except.map]
  | ok a => simp

/-! ## Lists of steps -/

theorem mapM_cons_eq_bind (f : α → Except ε β) (a : α) (rest : List α) :
    (a :: rest).mapM f = (f a).bind fun b => (rest.mapM f).map fun bs => b :: bs := by
  rw [List.mapM_cons]
  cases f a with
  | error e => rfl
  | ok b => cases rest.mapM f <;> rfl

/-- A list of steps succeeds with the list of what the single steps give. -/
theorem mapM_eq_ok_iff (f : α → Except ε β) (as : List α) (bs : List β) :
    as.mapM f = .ok bs ↔ List.Forall₂ (fun a b => f a = .ok b) as bs := by
  induction as generalizing bs with
  | nil => simp [pure, Except.pure, eq_comm]
  | cons a rest ih =>
    rw [mapM_cons_eq_bind, bind_eq_ok_iff, List.forall₂_cons_left_iff]
    constructor
    · rintro ⟨b, first, tail⟩
      obtain ⟨bs', others, rfl⟩ := (map_eq_ok_iff _ _ _).1 tail
      exact ⟨b, bs', first, (ih bs').1 others, rfl⟩
    · rintro ⟨b, bs', first, others, rfl⟩
      exact ⟨b, first, (map_eq_ok_iff _ _ _).2 ⟨bs', (ih bs').2 others, rfl⟩⟩

theorem exists_of_mapM_eq_ok {f : α → Except ε β} {as : List α} {bs : List β}
    (run : as.mapM f = .ok bs) {a : α} (mem : a ∈ as) : ∃ b ∈ bs, f a = .ok b :=
  exists_right_of_forall₂ ((mapM_eq_ok_iff f as bs).1 run) mem

theorem exists_mapM_eq_ok (f : α → Except ε β) (as : List α)
    (each : ∀ a ∈ as, ∃ b, f a = .ok b) : ∃ bs, as.mapM f = .ok bs := by
  induction as with
  | nil => exact ⟨[], rfl⟩
  | cons a rest ih =>
    obtain ⟨b, first⟩ := each a List.mem_cons_self
    obtain ⟨bs, others⟩ := ih fun a' mem => each a' (List.mem_cons_of_mem a mem)
    exact ⟨b :: bs, by rw [mapM_cons_eq_bind, first, others]; rfl⟩

/-- Steps that agree on every member of a list agree on the list. -/
theorem mapM_congr (f f' : α → Except ε β) (as : List α) (each : ∀ a ∈ as, f a = f' a) :
    as.mapM f = as.mapM f' := by
  induction as with
  | nil => rfl
  | cons a rest ih =>
    rw [mapM_cons_eq_bind, mapM_cons_eq_bind, each a List.mem_cons_self,
      ih fun a' mem => each a' (List.mem_cons_of_mem a mem)]

/-! ## Searches -/

theorem anyM_cons_eq_bind (p : α → Except ε Bool) (a : α) (rest : List α) :
    (a :: rest).anyM p = (p a).bind fun found => if found then .ok true else rest.anyM p := by
  cases step : p a with
  | error e => simp [List.anyM, step, bind, Except.bind]
  | ok found => cases found <;> simp [List.anyM, step, bind, Except.bind, pure, Except.pure]

theorem allM_cons_eq_bind (p : α → Except ε Bool) (a : α) (rest : List α) :
    (a :: rest).allM p = (p a).bind fun holds => if holds then rest.allM p else .ok false := by
  cases step : p a with
  | error e => simp [List.allM, step, bind, Except.bind]
  | ok holds => cases holds <;> simp [List.allM, step, bind, Except.bind, pure, Except.pure]

theorem anyM_eq_ok (p : α → Except ε Bool) (q : α → Bool) (as : List α)
    (each : ∀ a ∈ as, p a = .ok (q a)) : as.anyM p = .ok (as.any q) := by
  induction as with
  | nil => rfl
  | cons a rest ih =>
    rw [anyM_cons_eq_bind, each a List.mem_cons_self, bind_ok, List.any_cons,
      ih fun a' mem => each a' (List.mem_cons_of_mem a mem)]
    cases q a <;> rfl

theorem allM_eq_ok (p : α → Except ε Bool) (q : α → Bool) (as : List α)
    (each : ∀ a ∈ as, p a = .ok (q a)) : as.allM p = .ok (as.all q) := by
  induction as with
  | nil => rfl
  | cons a rest ih =>
    rw [allM_cons_eq_bind, each a List.mem_cons_self, bind_ok, List.all_cons,
      ih fun a' mem => each a' (List.mem_cons_of_mem a mem)]
    cases q a <;> rfl

theorem exists_anyM_eq_ok (p : α → Except ε Bool) (as : List α)
    (each : ∀ a ∈ as, ∃ b, p a = .ok b) : ∃ b, as.anyM p = .ok b := by
  refine ⟨_, anyM_eq_ok p (fun a => (p a).toOption.getD false) as fun a mem => ?_⟩
  obtain ⟨b, step⟩ := each a mem
  simp [step, Except.toOption]

theorem exists_allM_eq_ok (p : α → Except ε Bool) (as : List α)
    (each : ∀ a ∈ as, ∃ b, p a = .ok b) : ∃ b, as.allM p = .ok b := by
  refine ⟨_, allM_eq_ok p (fun a => (p a).toOption.getD false) as fun a mem => ?_⟩
  obtain ⟨b, step⟩ := each a mem
  simp [step, Except.toOption]

/-- A search in which every question has an answer finds something exactly if one of them is yes. -/
theorem anyM_eq_true_iff (p : α → Except ε Bool) (as : List α)
    (each : ∀ a ∈ as, ∃ b, p a = .ok b) : as.anyM p = .ok true ↔ ∃ a ∈ as, p a = .ok true := by
  induction as with
  | nil => simp [pure, Except.pure]
  | cons a rest ih =>
    obtain ⟨found, answer⟩ := each a List.mem_cons_self
    rw [anyM_cons_eq_bind, answer, bind_ok, List.exists_mem_cons_iff, answer]
    cases found with
    | true => simp
    | false => simpa using ih fun a' mem => each a' (List.mem_cons_of_mem a mem)

theorem allM_eq_false_iff (p : α → Except ε Bool) (as : List α)
    (each : ∀ a ∈ as, ∃ b, p a = .ok b) : as.allM p = .ok false ↔ ∃ a ∈ as, p a = .ok false := by
  induction as with
  | nil => simp [pure, Except.pure]
  | cons a rest ih =>
    obtain ⟨holds, answer⟩ := each a List.mem_cons_self
    rw [allM_cons_eq_bind, answer, bind_ok, List.exists_mem_cons_iff, answer]
    cases holds with
    | true => simpa using ih fun a' mem => each a' (List.mem_cons_of_mem a mem)
    | false => simp

theorem anyM_congr (p p' : α → Except ε Bool) (as : List α) (each : ∀ a ∈ as, p a = p' a) :
    as.anyM p = as.anyM p' := by
  induction as with
  | nil => rfl
  | cons a rest ih =>
    rw [anyM_cons_eq_bind, anyM_cons_eq_bind, each a List.mem_cons_self,
      ih fun a' mem => each a' (List.mem_cons_of_mem a mem)]

theorem allM_congr (p p' : α → Except ε Bool) (as : List α) (each : ∀ a ∈ as, p a = p' a) :
    as.allM p = as.allM p' := by
  induction as with
  | nil => rfl
  | cons a rest ih =>
    rw [allM_cons_eq_bind, allM_cons_eq_bind, each a List.mem_cons_self,
      ih fun a' mem => each a' (List.mem_cons_of_mem a mem)]

end FormulaFusion
