/-!
# Named fields

`Fields α` maps names to values.  The entries are kept strictly sorted by name, so the order in
which they were stored leaves no trace and equality of maps is equality of their entries.
`Fields.get?` is the view of a map; `get?_insert` and its companions say what the operations do to
it.
-/

namespace FormulaFusion

/-- The entries stand in strictly increasing order of their names. -/
def SortedByName {α : Type} (entries : List (String × α)) : Prop :=
  entries.Pairwise fun a b => a.1 < b.1

/-- A finite map from names to values. -/
structure Fields (α : Type) where
  entries : List (String × α)
  sorted : SortedByName entries
  deriving DecidableEq

namespace Fields

variable {α : Type}

/-- The map without entries. -/
def empty : Fields α := ⟨[], List.Pairwise.nil⟩

instance : EmptyCollection (Fields α) := ⟨empty⟩

instance : Inhabited (Fields α) := ⟨empty⟩

/-- The value stored under a name. -/
def get? (fields : Fields α) (name : String) : Option α :=
  (fields.entries.find? fun entry => entry.1 = name).map (·.2)

/-- Puts an entry into its place in a sorted list, over an entry of the same name. -/
def insertEntry (name : String) (value : α) : List (String × α) → List (String × α)
  | [] => [(name, value)]
  | entry :: rest =>
    if name < entry.1 then (name, value) :: entry :: rest
    else if name = entry.1 then (name, value) :: rest
    else entry :: insertEntry name value rest

theorem lt_of_not_lt_of_ne {a b : String} (notLt : ¬a < b) (ne : a ≠ b) : b < a :=
  String.not_le.1 fun le => ne (String.le_antisymm le (String.not_lt.1 notLt))

theorem mem_insertEntry {name : String} {value : α} {entries : List (String × α)}
    {entry : String × α} (mem : entry ∈ insertEntry name value entries) :
    entry = (name, value) ∨ entry ∈ entries := by
  induction entries with
  | nil => simpa [insertEntry] using mem
  | cons head rest ih =>
    unfold insertEntry at mem
    split at mem
    · simpa using mem
    · split at mem
      · rcases List.mem_cons.1 mem with h | h
        · exact .inl h
        · exact .inr (List.mem_cons_of_mem _ h)
      · rcases List.mem_cons.1 mem with h | h
        · exact .inr (by simp [h])
        · exact (ih h).imp_right (List.mem_cons_of_mem _)

theorem sorted_insertEntry (name : String) (value : α) {entries : List (String × α)}
    (sorted : SortedByName entries) : SortedByName (insertEntry name value entries) := by
  induction entries with
  | nil => exact List.pairwise_singleton _ _
  | cons head rest ih =>
    have parts := List.pairwise_cons.1 sorted
    unfold insertEntry
    split
    case isTrue less =>
      refine List.pairwise_cons.2 ⟨fun entry mem => ?_, sorted⟩
      rcases List.mem_cons.1 mem with h | h
      · exact h ▸ less
      · exact String.lt_trans less (parts.1 entry h)
    case isFalse notLess =>
      split
      case isTrue same =>
        exact List.pairwise_cons.2 ⟨fun entry mem => same ▸ parts.1 entry mem, parts.2⟩
      case isFalse different =>
        refine List.pairwise_cons.2 ⟨fun entry mem => ?_, ih parts.2⟩
        rcases mem_insertEntry mem with h | h
        · exact h ▸ lt_of_not_lt_of_ne notLess different
        · exact parts.1 entry h

/-- The map with a value stored under a name, in place of any earlier one. -/
def insert (fields : Fields α) (name : String) (value : α) : Fields α :=
  ⟨insertEntry name value fields.entries, sorted_insertEntry name value fields.sorted⟩

/-- The map without the entry of a name. -/
def erase (fields : Fields α) (name : String) : Fields α :=
  ⟨fields.entries.filter fun entry => entry.1 != name, List.Pairwise.filter _ fields.sorted⟩

/-- The map with a single entry. -/
def singleton (name : String) (value : α) : Fields α := empty.insert name value

/-- Stores the entries of a list one after the other. -/
def insertMany (fields : Fields α) (entries : List (String × α)) : Fields α :=
  entries.foldl (fun fields entry => fields.insert entry.1 entry.2) fields

/-- The map with the given entries; of two entries of one name the later counts. -/
def ofList (entries : List (String × α)) : Fields α := empty.insertMany entries

/-! ## Look-ups -/

@[simp]
theorem get?_empty (name : String) : (empty : Fields α).get? name = none := rfl

@[simp]
theorem get?_insert (fields : Fields α) (name other : String) (value : α) :
    (fields.insert name value).get? other =
      if other = name then some value else fields.get? other := by
  obtain ⟨entries, sorted⟩ := fields
  simp only [get?, insert]
  clear sorted
  induction entries with
  | nil => by_cases h : name = other <;> simp [insertEntry, h, eq_comm]
  | cons head rest ih =>
    unfold insertEntry
    split
    · by_cases h : name = other <;> simp [h, eq_comm]
    · split
      case isTrue same =>
        by_cases h : name = other
        · simp [h]
        · have here : ¬head.1 = other := fun e => h (same.trans e)
          have there : ¬other = name := fun e => h e.symm
          simp [h, here, there]
      case isFalse different =>
        by_cases h : head.1 = other
        · have : ¬other = name := fun e => different (e.symm.trans h.symm)
          simp [h, this]
        · simpa [h] using ih

@[simp]
theorem get?_singleton (name other : String) (value : α) :
    (singleton name value).get? other = if other = name then some value else none := by
  simp [singleton]

end Fields

end FormulaFusion
