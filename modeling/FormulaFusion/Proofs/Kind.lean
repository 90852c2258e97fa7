import Mathlib.Data.List.Nodup
import FormulaFusion.Kind

/-!
# Kinds and their type names

No two kinds with a type name of their own share it (`Kind.nodup_knownNames`), so that no kind
hides another when names are looked up.  Every name is the type name of its kind, and every kind is
that of its type name but for `Kind.other` with a name that is known (`Kind.typeNames_correspond`).
Names can also be looked up in stages, first those that are listed one by one and then, without
their namespace, those of functions: it comes to the same (`Kind.ofTypeName_eq_inStages`).
-/

namespace FormulaFusion

namespace Kind

/-! ## Known names -/

/-- The type names of the kinds with a name of their own. -/
def knownNames : List String := known.map typeName

theorem nodup_knownNames : knownNames.Nodup := by decide +kernel

theorem eq_of_typeName_eq {kind kind' : Kind} (mem : kind ∈ known) (mem' : kind' ∈ known)
    (same : kind.typeName = kind'.typeName) : kind = kind' :=
  List.inj_on_of_nodup_map nodup_knownNames mem mem' same

theorem ofTypeName_of_mem_known {kind : Kind} (mem : kind ∈ known) :
    ofTypeName kind.typeName = kind := by
  rw [ofTypeName]
  cases found : known.find? fun kind' => kind'.typeName = kind.typeName with
  | none =>
    have apart := List.find?_eq_none.1 found kind mem
    simp at apart
  | some kind' =>
    have same : kind'.typeName = kind.typeName := by simpa using List.find?_some found
    exact eq_of_typeName_eq (List.mem_of_find?_eq_some found) mem same

theorem ofTypeName_of_not_mem {name : String} (unknown : name ∉ knownNames) :
    ofTypeName name = other name := by
  have none : (known.find? fun kind => kind.typeName = name) = none := by
    refine List.find?_eq_none.2 fun kind mem same => unknown ?_
    exact List.mem_map.2 ⟨kind, mem, by simpa using same⟩
  rw [ofTypeName, none, Option.getD_none]

/-- A name is known, as that of exactly one kind, or its kind is `other`. -/
theorem ofTypeName_cases (name : String) :
    (∃ kind ∈ known, kind.typeName = name ∧ ofTypeName name = kind) ∨
      name ∉ knownNames ∧ ofTypeName name = other name := by
  by_cases mem : name ∈ knownNames
  · obtain ⟨kind, own, rfl⟩ := List.mem_map.1 mem
    exact .inl ⟨kind, own, rfl, ofTypeName_of_mem_known own⟩
  · exact .inr ⟨mem, ofTypeName_of_not_mem mem⟩

theorem typeName_ofTypeName (name : String) : (ofTypeName name).typeName = name := by
  obtain ⟨kind, -, named, found⟩ | ⟨-, unknown⟩ := ofTypeName_cases name
  · rw [found, named]
  · rw [unknown, typeName]

theorem ofTypeName_eq_other_iff (name : String) :
    ofTypeName name = other name ↔ name ∉ knownNames := by
  obtain ⟨kind, own, rfl, found⟩ | ⟨unknown, found⟩ := ofTypeName_cases name
  · rw [found]
    exact iff_of_false ((mem_known_iff kind).1 own _) (not_not.2 (List.mem_map_of_mem own))
  · exact iff_of_true found unknown

theorem ofTypeName_typeName_iff (kind : Kind) :
    ofTypeName kind.typeName = kind ↔ ¬ ∃ name ∈ knownNames, kind = other name := by
  by_cases own : kind ∈ known
  · have apart := (mem_known_iff kind).1 own
    exact iff_of_true (ofTypeName_of_mem_known own) fun ⟨name, _, same⟩ => apart name same
  · obtain ⟨name, rfl⟩ : ∃ name, kind = other name := by
      simpa using mt (mem_known_iff kind).2 own
    rw [typeName, ofTypeName_eq_other_iff]
    simp

theorem isInlinable_ofTypeName_iff (name : String) :
    (ofTypeName name).isInlinable = true ↔
      ∃ kind ∈ known, kind.isInlinable = true ∧ kind.typeName = name := by
  constructor
  · intro inlinable
    obtain ⟨kind, own, named, found⟩ | ⟨-, found⟩ := ofTypeName_cases name
    · exact ⟨kind, own, found ▸ inlinable, named⟩
    · rw [found] at inlinable
      cases inlinable
  · rintro ⟨kind, own, inlinable, rfl⟩
    rwa [ofTypeName_of_mem_known own]

/-! ## Recognition in stages -/

/-- The type names that are listed one by one. -/
def listed : List (String × Kind) :=
  [("pnnx.Input", input), ("pnnx.Output", output), ("pnnx.Expression", expression),
    ("prim::Constant", constant), ("prim::NumToTensor", numToTensor),
    ("prim::ListConstruct", listConstruct), ("aten::size", size), ("aten::Int", int),
    ("aten::to", cast), ("aten::detach", detach), ("aten::ScalarImplicit", scalarImplicit),
    ("aten::add", add), ("aten::sub", sub), ("aten::rsub", rsub)]

/-- The names of connectives as operators have them. -/
def underscored : List (String × Connective) :=
  [("__and__", .and), ("__or__", .or), ("__xor__", .xor)]

/-- A type name without the namespace of tensor functions. -/
def bareName? (name : String) : Option String :=
  (name.toList.dropPrefix? "aten::".toList).map String.ofList

/-- The kind of the function with a bare name: of one argument, of two, or a connective. -/
def ofBareName? (bare : String) : Option Kind :=
  ((UnaryFunction.all.find? fun f => f.name = bare).map unary).or
    (((BinaryFunction.all.find? fun f => f.name = bare).map binary).or
      ((underscored.lookup bare).map logical))

/-- The kind with the given type name, looked up in stages. -/
def ofTypeNameInStages (name : String) : Kind :=
  match listed.lookup name with
  | some kind => kind
  | none => ((bareName? name).bind ofBareName?).getD (other name)

theorem lookup_map_eq_find? {α : Type} (key : α → String) (items : List α) (name : String) :
    (items.map fun item => (key item, item)).lookup name =
      items.find? fun item => key item = name := by
  induction items with
  | nil => rfl
  | cons item rest ih =>
    rw [List.map_cons, List.lookup_cons, List.find?_cons, ih]
    by_cases same : key item = name
    · simp [same]
    · have apart : (name == key item) = false := beq_false_of_ne (Ne.symm same)
      simp [same, apart]

theorem namespace_append_eq_iff (name bare : String) :
    "aten::" ++ bare = name ↔ bareName? name = some bare := by
  rw [bareName?, Option.map_eq_some_iff, ← String.toList_inj, String.toList_append]
  constructor
  · intro spelled
    exact ⟨bare.toList, List.dropPrefix?_eq_some_iff.2 ⟨_, spelled.symm, beq_self_eq_true _⟩,
      String.ofList_toList⟩
  · rintro ⟨rest, dropped, rfl⟩
    obtain ⟨start, spelled, same⟩ := List.dropPrefix?_eq_some_iff.1 dropped
    have bare : (String.ofList rest).toList = rest := String.toList_ofList
    rw [spelled, eq_of_beq same, bare]

/-- A table of functions that is searched for a full name is searched for the bare one. -/
theorem find?_namespaced {α : Type} (bareName : α → String) (items : List α) (name : String) :
    (items.find? fun item => "aten::" ++ bareName item = name) =
      (bareName? name).bind fun bare => items.find? fun item => bareName item = bare := by
  simp only [namespace_append_eq_iff]
  cases bareName? name with
  | none => simp
  | some bare => simp [eq_comm]

theorem lookup_listed (name : String) :
    listed.lookup name = (listed.map Prod.snd).find? fun kind => kind.typeName = name := by
  rw [← lookup_map_eq_find?]
  rfl

theorem lookup_underscored (bare : String) :
    underscored.lookup bare = Connective.all.find? fun c => "__" ++ c.name ++ "__" = bare := by
  rw [← lookup_map_eq_find?]
  rfl

/-- The kinds of functions, searched for a type name, are searched for the bare name. -/
theorem find?_functions (name : String) :
    (UnaryFunction.all.map unary ++ (BinaryFunction.all.map binary ++
      Connective.all.map logical)).find? (fun kind => kind.typeName = name) =
      (bareName? name).bind ofBareName? := by
  have connective : ∀ c : Connective,
      "aten::__" ++ c.name ++ "__" = "aten::" ++ ("__" ++ c.name ++ "__") := by
    intro c
    cases c <;> rfl
  simp only [List.find?_append, List.find?_map, Function.comp_def, typeName, connective,
    find?_namespaced]
  cases bareName? name with
  | none => rfl
  | some bare => simp [ofBareName?, lookup_underscored]

theorem ofTypeName_eq_inStages (name : String) : ofTypeName name = ofTypeNameInStages name := by
  have tables : known = listed.map Prod.snd ++ (UnaryFunction.all.map unary ++
      (BinaryFunction.all.map binary ++ Connective.all.map logical)) := by
    rw [known, List.append_assoc, List.append_assoc]
    rfl
  rw [ofTypeName, ofTypeNameInStages, tables, List.find?_append, find?_functions, lookup_listed]
  cases (listed.map Prod.snd).find? fun kind => kind.typeName = name <;> rfl

/-- Every name is the type name of its kind, and every kind is that of its type name, unless it is
`other` with a known name.  So different names have different kinds, only known names have kinds of
their own, and only those of inlinable kinds have inlinable ones.  Looking names up in stages gives
the same kinds. -/
theorem typeNames_correspond :
    (∀ name, (ofTypeName name).typeName = name) ∧
      (∀ kind, ofTypeName kind.typeName = kind ↔ ¬ ∃ name ∈ knownNames, kind = other name) ∧
      Function.Injective ofTypeName ∧
      (∀ name, ofTypeName name = other name ↔ name ∉ knownNames) ∧
      (∀ name, (ofTypeName name).isInlinable = true ↔
        ∃ kind ∈ known, kind.isInlinable = true ∧ kind.typeName = name) ∧
      ∀ name, ofTypeName name = ofTypeNameInStages name := by
  refine ⟨typeName_ofTypeName, ofTypeName_typeName_iff, fun name name' same => ?_,
    ofTypeName_eq_other_iff, isInlinable_ofTypeName_iff, ofTypeName_eq_inStages⟩
  rw [← typeName_ofTypeName name, same, typeName_ofTypeName]

end Kind

end FormulaFusion
