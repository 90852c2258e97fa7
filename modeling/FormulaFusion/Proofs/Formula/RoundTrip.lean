import FormulaFusion.Proofs.Formula.Grammar
import FormulaFusion.Proofs.Formula.Scan

/-!
# Reading formulas back

A formula whose calls have names and arguments (`Formula.Shaped`) is read back from its text if its
literals are: every literal comes back as what is read from its own text, everything else as it was
(`Formula.Shaped.parse_render`).  A literal comes back as `Literal.reread` unless it is a string that is
not a word (`Formula.parse_text_literal`), and no parsed formula has such a string
(`Formula.isWord_of_parse`).
-/

namespace FormulaFusion

/-! ## Literals -/

namespace Literal

/-- The literal that is read from the text of a literal which is no string: doubles lose digits. -/
def reread : Literal → Literal
  | float value => float value.reread
  | literal => literal

theorem text_reread (literal : Literal) : literal.reread.text = literal.text := by
  cases literal with
  | float value => exact value.scientific_reread
  | _ => rfl

/-- The token that spells a literal. -/
def token : Literal → Token
  | none => .word "None"
  | bool true => .word "True"
  | bool false => .word "False"
  | int value => .int value
  | float value => .float value.reread
  | string value => .word value

theorem scan_text {literal : Literal} (word : ∀ name, literal = string name → Token.IsWord name) :
    Token.scan literal.text = .ok [literal.token] := by
  have fixed : ∀ name : String, Token.IsName name.toList → Token.ofWord name.toList = .word name →
      Token.scan name.toList = .ok [.word name] := by
    intro name isName ofWord
    rw [Token.scan_name isName, ofWord]
  cases literal with
  | none => exact fixed "None" ⟨'N', ['o', 'n', 'e'], rfl, rfl, rfl⟩ rfl
  | bool value =>
    cases value with
    | true => exact fixed "True" ⟨'T', ['r', 'u', 'e'], rfl, rfl, rfl⟩ rfl
    | false => exact fixed "False" ⟨'F', ['a', 'l', 's', 'e'], rfl, rfl, rfl⟩ rfl
  | int value => exact Token.scan_int value
  | float value => exact Token.scan_float value
  | string value =>
    have isWord := word value rfl
    exact fixed value isWord.1 (Token.ofWord_of_isWord isWord)

theorem derives_token {literal : Literal} (word : ∀ name, literal = string name → Token.IsWord name) :
    Formula.Derives (.literal literal.reread) [literal.token] := by
  cases literal with
  | none => exact .word "None"
  | bool value =>
    cases value with
    | true => exact .word "True"
    | false => exact .word "False"
  | int value => exact .int value
  | float value => exact .float value.reread
  | string value =>
    have spelled := Formula.Derives.word value
    have isWord := (word value rfl).2
    simp only [List.mem_cons, List.not_mem_nil, or_false, not_or] at isWord
    rwa [Formula.ofWord, if_neg isWord.1, if_neg isWord.2.1, if_neg isWord.2.2.1] at spelled

end Literal

/-! ## Formulas -/

namespace Formula

variable {σ τ : Type}

mutual

/-- The literals of a formula in reading order. -/
def literals : Formula σ → List Literal
  | literal value => [value]
  | slot _ => []
  | call _ args => literalsOfAll args
  | list items => literalsOfAll items

/-- The literals of several formulas in reading order. -/
def literalsOfAll : List (Formula σ) → List Literal
  | [] => []
  | formula :: rest => formula.literals ++ literalsOfAll rest

end

mutual

/-- The same formula with its literals changed. -/
def mapLiterals (f : Literal → Literal) : Formula σ → Formula σ
  | literal value => literal (f value)
  | slot label => slot label
  | call name args => call name (mapLiteralsAll f args)
  | list items => list (mapLiteralsAll f items)

/-- Several formulas with their literals changed. -/
def mapLiteralsAll (f : Literal → Literal) : List (Formula σ) → List (Formula σ)
  | [] => []
  | formula :: rest => formula.mapLiterals f :: mapLiteralsAll f rest

end

/-- Formulas are built from literals and slots by calls and lists. -/
@[elab_as_elim]
theorem induction {motive : Formula σ → Prop} (literal : ∀ value, motive (literal value))
    (slot : ∀ label, motive (slot label))
    (call : ∀ name args, (∀ arg ∈ args, motive arg) → motive (call name args))
    (list : ∀ items, (∀ item ∈ items, motive item) → motive (list items)) :
    ∀ formula, motive formula
  | .literal value => literal value
  | .slot label => slot label
  | .call name args => call name args fun arg _ => induction literal slot call list arg
  | .list items => list items fun item _ => induction literal slot call list item

theorem literalsOfAll_eq_flatMap (formulas : List (Formula σ)) :
    literalsOfAll formulas = formulas.flatMap literals := by
  induction formulas with
  | nil => rfl
  | cons formula rest ih => simp [literalsOfAll, ih]

theorem mapLiteralsAll_eq_map (f : Literal → Literal) (formulas : List (Formula σ)) :
    mapLiteralsAll f formulas = formulas.map (mapLiterals f) := by
  induction formulas with
  | nil => rfl
  | cons formula rest ih => simp [mapLiteralsAll, ih]

/-- Calls have names that can be read as words, and at least one argument. -/
inductive Shaped : Formula σ → Prop
  | literal (value : Literal) : Shaped (literal value)
  | slot (label : σ) : Shaped (slot label)
  | call {name : String} {args : List (Formula σ)} : Token.IsWord name → args ≠ [] →
      (∀ arg ∈ args, Shaped arg) → Shaped (call name args)
  | list {items : List (Formula σ)} : (∀ item ∈ items, Shaped item) → Shaped (list items)

/-! ## Changed literals -/

theorem textOfAll_map {f : Formula Nat → Formula Nat} {formulas : List (Formula Nat)}
    (each : ∀ formula ∈ formulas, (f formula).text = formula.text) :
    textOfAll (formulas.map f) = textOfAll formulas := by
  induction formulas with
  | nil => rfl
  | cons formula rest ih =>
    have others := ih fun formula mem => each formula (List.mem_cons_of_mem _ mem)
    have first := each formula List.mem_cons_self
    cases rest with
    | nil => simpa [textOfAll] using first
    | cons next rest =>
      rw [List.map_cons] at others
      rw [List.map_cons, List.map_cons, textOfAll, textOfAll, first, others]

/-- Literals with the same text can be exchanged in a text. -/
theorem text_mapLiterals {f : Literal → Literal} (same : ∀ literal, (f literal).text = literal.text)
    (formula : Formula Nat) : (formula.mapLiterals f).text = formula.text := by
  induction formula using induction with
  | literal value =>
    rw [mapLiterals, text, text]
    exact same value
  | slot index => rw [mapLiterals]
  | call name args ih =>
    rw [mapLiterals, text, text, mapLiteralsAll_eq_map, textOfAll_map ih]
  | list items ih =>
    rw [mapLiterals, text, text, mapLiteralsAll_eq_map, textOfAll_map ih]

theorem slots_mapLiterals (f : Literal → Literal) (formula : Formula σ) :
    (formula.mapLiterals f).slots = formula.slots := by
  induction formula using induction with
  | literal value => rw [mapLiterals, slots, slots]
  | slot label => rw [mapLiterals]
  | call name args ih =>
    rw [mapLiterals, slots, slots, mapLiteralsAll_eq_map, slotsOfAll_eq_flatMap,
      slotsOfAll_eq_flatMap, flatMap_map_congr ih]
  | list items ih =>
    rw [mapLiterals, slots, slots, mapLiteralsAll_eq_map, slotsOfAll_eq_flatMap,
      slotsOfAll_eq_flatMap, flatMap_map_congr ih]

theorem literals_mapLiterals (f : Literal → Literal) (formula : Formula σ) :
    (formula.mapLiterals f).literals = formula.literals.map f := by
  induction formula using induction with
  | literal value => rw [mapLiterals, literals, literals, List.map_singleton]
  | slot label => rw [mapLiterals, literals, List.map_nil]
  | call name args ih =>
    rw [mapLiterals, literals, literals, mapLiteralsAll_eq_map, literalsOfAll_eq_flatMap,
      literalsOfAll_eq_flatMap, List.flatMap_map, List.map_flatMap, List.flatMap_congr ih]
  | list items ih =>
    rw [mapLiterals, literals, literals, mapLiteralsAll_eq_map, literalsOfAll_eq_flatMap,
      literalsOfAll_eq_flatMap, List.flatMap_map, List.map_flatMap, List.flatMap_congr ih]

/-- Rereading leaves strings alone and makes no new ones. -/
theorem string_mem_literals_reread_iff (formula : Formula σ) (name : String) :
    Literal.string name ∈ (formula.mapLiterals Literal.reread).literals ↔
      Literal.string name ∈ formula.literals := by
  have same : ∀ literal : Literal, literal.reread = .string name ↔ literal = .string name := by
    intro literal
    cases literal <;> simp [Literal.reread]
  rw [literals_mapLiterals, List.mem_map]
  simp only [same, exists_eq_right]

theorem slots_relabel (f : σ → τ) (formula : Formula σ) :
    (formula.relabel f).slots = formula.slots.map f := by
  induction formula using induction with
  | literal value => rw [relabel, slots, slots, List.map_nil]
  | slot label => rw [relabel, slots, slots, List.map_singleton]
  | call name args ih =>
    rw [relabel, slots, slots, relabelAll_eq_map, slotsOfAll_eq_flatMap, slotsOfAll_eq_flatMap,
      List.flatMap_map, List.map_flatMap, List.flatMap_congr ih]
  | list items ih =>
    rw [relabel, slots, slots, relabelAll_eq_map, slotsOfAll_eq_flatMap, slotsOfAll_eq_flatMap,
      List.flatMap_map, List.map_flatMap, List.flatMap_congr ih]

theorem relabel_relabel {υ : Type} (f : σ → τ) (g : τ → υ) (formula : Formula σ) :
    (formula.relabel f).relabel g = formula.relabel fun label => g (f label) := by
  induction formula using induction with
  | literal value => rw [relabel, relabel, relabel]
  | slot label => rw [relabel, relabel, relabel]
  | call name args ih =>
    rw [relabel, relabel, relabel, relabelAll_eq_map, relabelAll_eq_map, relabelAll_eq_map,
      List.map_map]
    exact congrArg _ (List.map_congr_left ih)
  | list items ih =>
    rw [relabel, relabel, relabel, relabelAll_eq_map, relabelAll_eq_map, relabelAll_eq_map,
      List.map_map]
    exact congrArg _ (List.map_congr_left ih)

theorem relabel_congr {f g : σ → τ} {formula : Formula σ}
    (same : ∀ label ∈ formula.slots, f label = g label) : formula.relabel f = formula.relabel g := by
  have all : ∀ args : List (Formula σ), (∀ label ∈ slotsOfAll args, f label = g label) →
      (∀ arg ∈ args, (∀ label ∈ arg.slots, f label = g label) → arg.relabel f = arg.relabel g) →
        relabelAll f args = relabelAll g args := by
    intro args same ih
    rw [relabelAll_eq_map, relabelAll_eq_map]
    refine List.map_congr_left fun arg mem => ih arg mem fun label inside => same label ?_
    rw [slotsOfAll_eq_flatMap]
    exact List.mem_flatMap.2 ⟨arg, mem, inside⟩
  induction formula using induction with
  | literal value => rw [relabel, relabel]
  | slot label => rw [relabel, relabel, same label (by rw [slots]; exact List.mem_cons_self)]
  | call name args ih =>
    rw [slots] at same
    rw [relabel, relabel, all args same ih]
  | list items ih =>
    rw [slots] at same
    rw [relabel, relabel, all items same ih]

theorem literals_relabel (f : σ → τ) (formula : Formula σ) :
    (formula.relabel f).literals = formula.literals := by
  induction formula using induction with
  | literal value => rw [relabel, literals, literals]
  | slot label => rw [relabel, literals, literals]
  | call name args ih =>
    rw [relabel, literals, literals, relabelAll_eq_map, literalsOfAll_eq_flatMap,
      literalsOfAll_eq_flatMap, List.flatMap_map, List.flatMap_congr ih]
  | list items ih =>
    rw [relabel, literals, literals, relabelAll_eq_map, literalsOfAll_eq_flatMap,
      literalsOfAll_eq_flatMap, List.flatMap_map, List.flatMap_congr ih]

theorem mapLiterals_relabel (f : σ → τ) (g : Literal → Literal) (formula : Formula σ) :
    (formula.relabel f).mapLiterals g = (formula.mapLiterals g).relabel f := by
  induction formula using induction with
  | literal value => rw [relabel, mapLiterals, mapLiterals, relabel]
  | slot label => rw [relabel, mapLiterals, mapLiterals, relabel]
  | call name args ih =>
    rw [relabel, mapLiterals, mapLiterals, relabel, relabelAll_eq_map, mapLiteralsAll_eq_map,
      mapLiteralsAll_eq_map, relabelAll_eq_map, List.map_map, List.map_map]
    exact congrArg _ (List.map_congr_left ih)
  | list items ih =>
    rw [relabel, mapLiterals, mapLiterals, relabel, relabelAll_eq_map, mapLiteralsAll_eq_map,
      mapLiteralsAll_eq_map, relabelAll_eq_map, List.map_map, List.map_map]
    exact congrArg _ (List.map_congr_left ih)

theorem Shaped.relabel {formula : Formula σ} (shaped : formula.Shaped) (f : σ → τ) :
    (formula.relabel f).Shaped := by
  induction shaped with
  | literal value =>
    rw [Formula.relabel]
    exact .literal value
  | slot label =>
    rw [Formula.relabel]
    exact .slot _
  | call word nonempty _ ih =>
    rw [Formula.relabel, relabelAll_eq_map]
    refine .call word (by simpa using nonempty) ?_
    simpa using ih
  | list _ ih =>
    rw [Formula.relabel, relabelAll_eq_map]
    refine .list ?_
    simpa using ih

/-! ## Texts are read back -/

theorem exists_parts {read : Literal → Literal} {formulas : List (Formula Nat)}
    (each : ∀ formula ∈ formulas, parse formula.render = .ok (formula.mapLiterals read)) :
    ∃ parts : List (Formula Nat × List Token), parts.map Prod.fst = mapLiteralsAll read formulas ∧
      (∀ part ∈ parts, Derives part.1 part.2) ∧
      Token.scan (textOfAll formulas) = .ok (commaSeparated parts) := by
  induction formulas with
  | nil => exact ⟨[], rfl, nofun, by rw [textOfAll, Token.scan, commaSeparated_nil]⟩
  | cons formula others ih =>
    obtain ⟨tokens, scanned, derives⟩ := (parse_eq_ok_iff _ _).1 (each formula List.mem_cons_self)
    obtain ⟨parts, formulas, derives', scanned'⟩ :=
      ih fun formula mem => each formula (List.mem_cons_of_mem _ mem)
    refine ⟨(formula.mapLiterals read, tokens) :: parts, ?_, ?_, ?_⟩
    · rw [List.map_cons, formulas, mapLiteralsAll]
    · intro part mem
      rcases List.mem_cons.1 mem with rfl | mem
      · exact derives
      · exact derives' part mem
    · cases others with
      | nil =>
        obtain rfl : parts = [] := by simpa [mapLiteralsAll] using formulas
        rw [textOfAll, commaSeparated_singleton, scanned]
      | cons next others =>
        obtain ⟨part, parts, rfl⟩ : ∃ part rest, parts = part :: rest := by
          cases parts with
          | nil => simp [mapLiteralsAll] at formulas
          | cons part rest => exact ⟨part, rest, rfl⟩
        rw [textOfAll, Token.scan_append scanned (Token.stops_cons rfl _),
          Token.scan_punctuation rfl, scanned', map_ok, map_ok, commaSeparated_cons_cons]

/-- The text between brackets, followed by the closing one. -/
theorem scan_append_closer {text : List Char} {tokens : List Token} {c : Char} {closer : Token}
    (scanned : Token.scan text = .ok tokens) (mark : Token.punctuation? c = some closer) :
    Token.scan (text ++ [c]) = .ok (tokens ++ [closer]) := by
  rw [Token.scan_append scanned (Token.stops_cons mark _), Token.scan_punctuation mark, Token.scan,
    map_ok, map_ok]

/-- A formula is read back from its text, with the literals that are read from theirs. -/
theorem Shaped.parse_render {read : Literal → Literal} {formula : Formula Nat}
    (shaped : formula.Shaped) (literals : ∀ value ∈ formula.literals,
      parse (String.ofList value.text) = .ok (.literal (read value)))
    (bounded : ∀ index ∈ formula.slots, index < 2 ^ 64) :
    parse formula.render = .ok (formula.mapLiterals read) := by
  induction shaped with
  | literal value =>
    rw [render, text, mapLiterals]
    exact literals value (by rw [Formula.literals]; exact List.mem_cons_self)
  | slot index =>
    have fits : index < 2 ^ 64 := bounded index (by rw [slots]; exact List.mem_cons_self)
    rw [render, text, mapLiterals, parse_eq_ok_iff]
    exact ⟨[.slot index], Token.scan_slot fits, .slot index⟩
  | @call name args word nonempty _ ih =>
    rw [Formula.literals, literalsOfAll_eq_flatMap] at literals
    rw [slots, slotsOfAll_eq_flatMap] at bounded
    obtain ⟨parts, formulas, derives, scanned⟩ := exists_parts fun arg mem => ih arg mem
      (fun name inside => literals name (List.mem_flatMap.2 ⟨arg, mem, inside⟩))
      (fun index inside => bounded index (List.mem_flatMap.2 ⟨arg, mem, inside⟩))
    have some : parts ≠ [] := by
      rintro rfl
      rw [mapLiteralsAll_eq_map, List.map_nil, eq_comm, List.map_eq_nil_iff] at formulas
      exact nonempty formulas
    rw [render, text, mapLiterals, ← formulas, parse_eq_ok_iff]
    refine ⟨_, ?_, .call name parts some derives⟩
    rw [List.append_assoc, List.cons_append,
      Token.scan_append (Token.scan_name word.1) (Token.stops_cons rfl _),
      Token.ofWord_of_isWord word, Token.scan_punctuation rfl, scan_append_closer scanned rfl,
      map_ok, map_ok]
    rfl
  | @list items _ ih =>
    rw [Formula.literals, literalsOfAll_eq_flatMap] at literals
    rw [slots, slotsOfAll_eq_flatMap] at bounded
    obtain ⟨parts, formulas, derives, scanned⟩ := exists_parts fun item mem => ih item mem
      (fun name inside => literals name (List.mem_flatMap.2 ⟨item, mem, inside⟩))
      (fun index inside => bounded index (List.mem_flatMap.2 ⟨item, mem, inside⟩))
    rw [render, text, mapLiterals, ← formulas, parse_eq_ok_iff]
    refine ⟨_, ?_, .list parts derives⟩
    rw [List.cons_append, Token.scan_punctuation rfl, scan_append_closer scanned rfl, map_ok]
    rfl

/-- A literal that is no string, or a string that is a word, is read back from its text. -/
theorem parse_text_literal {l : Literal} (word : ∀ name, l = .string name → Token.IsWord name) :
    parse (String.ofList l.text) = .ok (.literal l.reread) := by
  rw [parse_eq_ok_iff]
  exact ⟨_, Literal.scan_text word, Literal.derives_token word⟩

/-! ## Strings of parsed formulas -/

/-- A string of a spelled formula is one of the words that spell it. -/
theorem Derives.word_mem {formula : Formula Nat} {tokens : List Token}
    (derives : Derives formula tokens) {name : String}
    (mem : Literal.string name ∈ formula.literals) :
    Token.word name ∈ tokens ∧ name ∉ ["None", "True", "False"] := by
  induction derives with
  | int | float | slot => simp [literals] at mem
  | word word =>
    unfold ofWord at mem
    split_ifs at mem with none isTrue isFalse
    · simp [literals] at mem
    · simp [literals] at mem
    · simp [literals] at mem
    · obtain rfl : name = word := by simpa [literals] using mem
      exact ⟨List.mem_cons_self, by simp [none, isTrue, isFalse]⟩
  | call word parts nonempty each ih =>
    rw [literals, literalsOfAll_eq_flatMap, List.flatMap_map, List.mem_flatMap] at mem
    obtain ⟨part, listed, mem⟩ := mem
    obtain ⟨found, apart⟩ := ih part listed mem
    exact ⟨by simp [mem_commaSeparated listed found], apart⟩
  | list parts each ih =>
    rw [literals, literalsOfAll_eq_flatMap, List.flatMap_map, List.mem_flatMap] at mem
    obtain ⟨part, listed, mem⟩ := mem
    obtain ⟨found, apart⟩ := ih part listed mem
    exact ⟨by simp [mem_commaSeparated listed found], apart⟩

/-- Every string of a parsed formula is a word. -/
theorem isWord_of_parse {text : String} {formula : Formula Nat} (parsed : parse text = .ok formula)
    {name : String} (mem : Literal.string name ∈ formula.literals) : Token.IsWord name := by
  obtain ⟨tokens, scanned, read⟩ := (bind_eq_ok_iff _ _ _).1 parsed
  obtain ⟨found, keyword⟩ := ((ofTokens_eq_ok_iff tokens formula).1 read).word_mem mem
  obtain ⟨isName, inf, nan⟩ := Token.isName_of_mem_scan scanned found
  refine ⟨isName, ?_⟩
  simp only [List.mem_cons, List.not_mem_nil, or_false, not_or] at keyword ⊢
  exact ⟨keyword.1, keyword.2.1, keyword.2.2, inf, nan⟩

end Formula

end FormulaFusion
