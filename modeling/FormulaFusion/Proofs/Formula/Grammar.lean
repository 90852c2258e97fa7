import Mathlib.Tactic.SplitIfs
import FormulaFusion.Formula.Parser
import FormulaFusion.Proofs.Success

/-!
# The grammar of formulas

`Formula.Derives` is the grammar: a formula is a number, a slot, a word, a call with arguments
between round brackets, or a list between square brackets, with commas between the parts.  The parser
keeps a stack of open items; what it has read so far spells that stack (`Formula.Opens`), and from
this it follows that it accepts exactly what the grammar derives (`Formula.ofTokens_eq_ok_iff`).  So a
text is read as a formula exactly if its tokens spell the formula, and no tokens spell two formulas
(`Formula.parse_eq_ok_iff_derives`).
-/

namespace FormulaFusion

namespace Formula

/-- Tokens of several formulas with commas between them. -/
def commaSeparated (parts : List (Formula Nat × List Token)) : List Token :=
  [Token.comma].intercalate (parts.map Prod.snd)

/-- The formula is spelled by the tokens. -/
inductive Derives : Formula Nat → List Token → Prop
  | int (value : Int64) : Derives (literal (.int value)) [.int value]
  | float (value : Binary64) : Derives (literal (.float value)) [.float value]
  | slot (index : Nat) : Derives (slot index) [.slot index]
  | word (name : String) : Derives (ofWord name) [.word name]
  | call (name : String) (parts : List (Formula Nat × List Token)) (nonempty : parts ≠ []) :
      (∀ part ∈ parts, Derives part.1 part.2) →
        Derives (call name (parts.map Prod.fst))
          (.word name :: .openRound :: commaSeparated parts ++ [.closeRound])
  | list (parts : List (Formula Nat × List Token)) : (∀ part ∈ parts, Derives part.1 part.2) →
      Derives (list (parts.map Prod.fst)) (.openSquare :: commaSeparated parts ++ [.closeSquare])

@[simp]
theorem commaSeparated_nil : commaSeparated [] = [] := rfl

@[simp]
theorem commaSeparated_singleton (part : Formula Nat × List Token) :
    commaSeparated [part] = part.2 := by
  simp [commaSeparated, List.intercalate]

@[simp]
theorem commaSeparated_cons_cons (part next : Formula Nat × List Token)
    (rest : List (Formula Nat × List Token)) :
    commaSeparated (part :: next :: rest) = part.2 ++ .comma :: commaSeparated (next :: rest) := by
  simp [commaSeparated, List.intercalate]

theorem commaSeparated_append_singleton (parts : List (Formula Nat × List Token))
    (last : Formula Nat × List Token) :
    commaSeparated (parts ++ [last]) = parts.flatMap (fun part => part.2 ++ [.comma]) ++ last.2 := by
  induction parts with
  | nil => simp
  | cons part rest ih =>
    cases rest with
    | nil => simp
    | cons next rest =>
      rw [List.cons_append, List.cons_append, commaSeparated_cons_cons, ← List.cons_append, ih]
      simp

theorem mem_commaSeparated {parts : List (Formula Nat × List Token)}
    {part : Formula Nat × List Token} (listed : part ∈ parts) {token : Token}
    (mem : token ∈ part.2) : token ∈ commaSeparated parts := by
  induction parts with
  | nil => cases listed
  | cons first rest ih =>
    cases rest with
    | nil =>
      obtain rfl := List.mem_singleton.1 listed
      rwa [commaSeparated_singleton]
    | cons next rest =>
      rw [commaSeparated_cons_cons, List.mem_append, List.mem_cons]
      rcases List.mem_cons.1 listed with rfl | listed
      · exact .inl mem
      · exact .inr (.inr (ih listed))

/-! ## What the grammar derives is accepted -/

/-- No formula begins with a closing bracket. -/
theorem Derives.exists_cons {formula : Formula Nat} {tokens : List Token}
    (derives : Derives formula tokens) :
    ∃ first rest, tokens = first :: rest ∧ first ≠ .closeRound ∧ first ≠ .closeSquare := by
  cases derives <;> exact ⟨_, _, rfl, nofun, nofun⟩

theorem exists_cons_of_commaSeparated {parts : List (Formula Nat × List Token)}
    (nonempty : parts ≠ []) (each : ∀ part ∈ parts, Derives part.1 part.2) :
    ∃ first rest, commaSeparated parts = first :: rest ∧ first ≠ .closeRound ∧
      first ≠ .closeSquare := by
  obtain ⟨part, others, rfl⟩ := List.exists_cons_of_ne_nil nonempty
  obtain ⟨first, rest, tokens, opens⟩ := (each part List.mem_cons_self).exists_cons
  cases others with
  | nil => exact ⟨first, rest, by rw [commaSeparated_singleton, tokens], opens⟩
  | cons next others =>
    exact ⟨first, _, by rw [commaSeparated_cons_cons, tokens, List.cons_append], opens⟩

end Formula

/-- The item with several more formulas. -/
def OpenItem.pushAll (item : OpenItem) (formulas : List (Formula Nat)) : OpenItem :=
  formulas.foldl (fun item formula => item.push formula) item

theorem OpenItem.closer_push (item : OpenItem) (formula : Formula Nat) :
    (item.push formula).closer = item.closer := by
  cases item <;> rfl

theorem OpenItem.pushAll_call (name : String) (done formulas : List (Formula Nat)) :
    (call name done).pushAll formulas = call name (formulas.reverse ++ done) := by
  induction formulas generalizing done with
  | nil => rfl
  | cons formula rest ih =>
    rw [pushAll, List.foldl_cons, ← pushAll, push, ih]
    simp

theorem OpenItem.pushAll_list (done formulas : List (Formula Nat)) :
    (list done).pushAll formulas = list (formulas.reverse ++ done) := by
  induction formulas generalizing done with
  | nil => rfl
  | cons formula rest ih =>
    rw [pushAll, List.foldl_cons, ← pushAll, push, ih]
    simp

namespace Formula

theorem afterItem_closer (item : OpenItem) (stack : List OpenItem) (formula : Formula Nat)
    (rest : List Token) :
    afterItem (item :: stack) formula (item.closer :: rest) =
      afterItem stack (item.push formula).close rest := by
  rw [afterItem]
  cases item <;> simp [OpenItem.closer]

theorem afterItem_comma (item : OpenItem) (stack : List OpenItem) (formula : Formula Nat)
    (rest : List Token) :
    afterItem (item :: stack) formula (.comma :: rest) = readItem (item.push formula :: stack) rest := by
  rw [afterItem]
  simp

/-- The parts of an open item are read one after the other up to the bracket that closes it. -/
theorem readItem_commaSeparated {parts : List (Formula Nat × List Token)} (nonempty : parts ≠ [])
    (each : ∀ part ∈ parts, ∀ stack rest, rest.head? ≠ some Token.openRound →
      readItem stack (part.2 ++ rest) = afterItem stack part.1 rest)
    (item : OpenItem) (stack : List OpenItem) (rest : List Token) :
    readItem (item :: stack) (commaSeparated parts ++ item.closer :: rest) =
      afterItem stack (item.pushAll (parts.map Prod.fst)).close rest := by
  induction parts generalizing item with
  | nil => exact absurd rfl nonempty
  | cons part others ih =>
    have first := each part List.mem_cons_self
    cases others with
    | nil =>
      rw [commaSeparated_singleton, first _ _ (by cases item <;> simp [OpenItem.closer]),
        afterItem_closer]
      rfl
    | cons next others =>
      rw [commaSeparated_cons_cons, List.append_assoc, List.cons_append, first _ _ (by simp),
        afterItem_comma, ← item.closer_push part.1,
        ih (by simp) (fun part mem => each part (List.mem_cons_of_mem _ mem))]
      rfl

/-- A spelled formula is read at any place where a formula may begin, unless a bracket after it
makes a word the name of a call. -/
theorem Derives.readItem {formula : Formula Nat} {tokens : List Token}
    (derives : Derives formula tokens) (stack : List OpenItem) (rest : List Token)
    (settled : rest.head? ≠ some .openRound) :
    readItem stack (tokens ++ rest) = afterItem stack formula rest := by
  induction derives generalizing stack rest with
  | int | float | slot =>
    rw [List.singleton_append, Formula.readItem]
  | word name =>
    rw [List.singleton_append, Formula.readItem]
    · rintro after rfl
      exact settled rfl
    · rintro after rfl
      exact settled rfl
  | call name parts nonempty each ih =>
    obtain ⟨first, others, tokens, opens, -⟩ := exists_cons_of_commaSeparated nonempty each
    have run := readItem_commaSeparated nonempty ih (.call name []) stack rest
    rw [OpenItem.pushAll_call, List.append_nil, OpenItem.close, List.reverse_reverse] at run
    rw [← run, tokens]
    simp only [List.cons_append, List.append_assoc, List.nil_append]
    rw [Formula.readItem]
    · rfl
    · rintro after eq
      exact opens (List.cons.inj eq).1
  | list parts each ih =>
    by_cases nonempty : parts = []
    · subst nonempty
      simp only [commaSeparated_nil, List.map_nil, List.cons_append, List.nil_append]
      rw [Formula.readItem]
    · obtain ⟨first, others, tokens, -, opens⟩ := exists_cons_of_commaSeparated nonempty each
      have run := readItem_commaSeparated nonempty ih (.list []) stack rest
      rw [OpenItem.pushAll_list, List.append_nil, OpenItem.close, List.reverse_reverse] at run
      rw [← run, tokens]
      simp only [List.cons_append, List.append_assoc, List.nil_append]
      rw [Formula.readItem]
      · rfl
      · rintro after eq
        exact opens (List.cons.inj eq).1

/-! ## What is accepted is derived -/

/-- The tokens open the items of the stack and spell the formulas that they hold so far. -/
inductive Opens : List OpenItem → List Token → Prop
  | nil : Opens [] []
  | call {stack : List OpenItem} {tokens : List Token} (name : String)
      (parts : List (Formula Nat × List Token)) : Opens stack tokens →
      (∀ part ∈ parts, Derives part.1 part.2) →
        Opens (.call name (parts.map Prod.fst).reverse :: stack)
          (tokens ++ .word name :: .openRound :: parts.flatMap fun part => part.2 ++ [.comma])
  | list {stack : List OpenItem} {tokens : List Token} (parts : List (Formula Nat × List Token)) :
      Opens stack tokens → (∀ part ∈ parts, Derives part.1 part.2) →
        Opens (.list (parts.map Prod.fst).reverse :: stack)
          (tokens ++ .openSquare :: parts.flatMap fun part => part.2 ++ [.comma])

theorem derives_of_mem_append {parts : List (Formula Nat × List Token)} {formula : Formula Nat}
    {tokens : List Token} (each : ∀ part ∈ parts, Derives part.1 part.2)
    (derives : Derives formula tokens) :
    ∀ part ∈ parts ++ [(formula, tokens)], Derives part.1 part.2 := by
  intro part mem
  rcases List.mem_append.1 mem with old | new
  · exact each part old
  · rw [List.mem_singleton.1 new]
    exact derives

/-- A formula and a comma extend the innermost item. -/
theorem Opens.push {item : OpenItem} {stack : List OpenItem} {consumed tokens : List Token}
    {formula : Formula Nat} (opens : Opens (item :: stack) consumed)
    (derives : Derives formula tokens) :
    Opens (item.push formula :: stack) (consumed ++ tokens ++ [.comma]) := by
  cases opens with
  | call name parts outer each =>
    have extended := Opens.call name _ outer (derives_of_mem_append each derives)
    simpa [OpenItem.push] using extended
  | list parts outer each =>
    have extended := Opens.list _ outer (derives_of_mem_append each derives)
    simpa [OpenItem.push] using extended

/-- A formula and the closing bracket finish the innermost item. -/
theorem Opens.close {item : OpenItem} {stack : List OpenItem} {consumed tokens : List Token}
    {formula : Formula Nat} (opens : Opens (item :: stack) consumed)
    (derives : Derives formula tokens) :
    ∃ outer inner, Opens stack outer ∧ Derives (item.push formula).close inner ∧
      consumed ++ tokens ++ [item.closer] = outer ++ inner := by
  cases opens with
  | call name parts outer each =>
    have whole := Derives.call name _ (by simp) (derives_of_mem_append each derives)
    have shape : ((OpenItem.call name (parts.map Prod.fst).reverse).push formula).close =
        .call name ((parts ++ [(formula, tokens)]).map Prod.fst) := by
      simp [OpenItem.push, OpenItem.close]
    rw [← shape] at whole
    refine ⟨_, _, outer, whole, ?_⟩
    rw [commaSeparated_append_singleton]
    simp [OpenItem.closer]
  | list parts outer each =>
    have whole := Derives.list _ (derives_of_mem_append each derives)
    have shape : ((OpenItem.list (parts.map Prod.fst).reverse).push formula).close =
        .list ((parts ++ [(formula, tokens)]).map Prod.fst) := by
      simp [OpenItem.push, OpenItem.close]
    rw [← shape] at whole
    refine ⟨_, _, outer, whole, ?_⟩
    rw [commaSeparated_append_singleton]
    simp [OpenItem.closer]

/-- A run that accepts has read a spelling of its result: what opened the stack, the formula read
last if there is one, and the tokens that are left. -/
theorem derives_of_run (tokens : List Token) {result : Formula Nat} {stack : List OpenItem}
    {consumed : List Token} (opens : Opens stack consumed) :
    (readItem stack tokens = .ok result → Derives result (consumed ++ tokens)) ∧
      ∀ item spelling, Derives item spelling → afterItem stack item tokens = .ok result →
        Derives result (consumed ++ spelling ++ tokens) := by
  induction count : tokens.length using Nat.strongRecOn generalizing tokens stack consumed with
  | _ count' ih =>
  subst count
  -- After an item whose spelling is known, the tokens that are left go on.
  have after : ∀ (rest : List Token) (item : Formula Nat) (spelling : List Token),
      rest.length < tokens.length → spelling ++ rest = tokens → Derives item spelling →
        afterItem stack item rest = .ok result → Derives result (consumed ++ tokens) := by
    rintro rest item spelling shorter rfl derives run
    simpa using (ih _ shorter rest opens rfl).2 item spelling derives run
  constructor
  · intro run
    unfold readItem at run
    split at run
    case h_1 value rest => exact after rest _ [.int value] (by simp) rfl (.int value) run
    case h_2 value rest => exact after rest _ [.float value] (by simp) rfl (.float value) run
    case h_3 index rest => exact after rest _ [.slot index] (by simp) rfl (.slot index) run
    case h_4 rest =>
      exact after rest _ [.openSquare, .closeSquare] (by simp only [List.length_cons]; omega) rfl (.list [] nofun) run
    case h_5 rest _ =>
      have inner := (ih _ (by simp) rest (Opens.list [] opens nofun) rfl).1 run
      simpa using inner
    case h_6 => cases run
    case h_7 name rest _ =>
      have inner := (ih _ (by simp only [List.length_cons]; omega) rest (Opens.call name [] opens nofun) rfl).1 run
      simpa using inner
    case h_8 name rest _ _ => exact after rest _ [.word name] (by simp) rfl (.word name) run
    case h_9 => cases run
  · intro item spelling derives run
    cases tokens with
    | nil =>
      cases opens with
      | nil =>
        obtain rfl : item = result := by simpa [afterItem] using run
        simpa using derives
      | _ => simp [afterItem] at run
    | cons token rest =>
      cases stack with
      | nil => simp [afterItem] at run
      | cons innermost outer =>
        simp only [afterItem] at run
        split_ifs at run with comma closes
        · subst comma
          have inner := (ih _ (by simp) rest (opens.push derives) rfl).1 run
          simpa using inner
        · subst closes
          obtain ⟨before, inner, opens', derives', split⟩ := opens.close derives
          have whole := (ih _ (by simp) rest opens' rfl).2 _ inner derives' run
          rwa [← split, List.append_assoc, List.singleton_append] at whole

/-- The parser accepts exactly what the grammar derives. -/
theorem ofTokens_eq_ok_iff (tokens : List Token) (formula : Formula Nat) :
    ofTokens tokens = .ok formula ↔ Derives formula tokens := by
  constructor
  · intro run
    simpa using (derives_of_run tokens .nil).1 run
  · intro derives
    have run := derives.readItem [] [] (by simp)
    rw [List.append_nil] at run
    rw [ofTokens, run, afterItem]

/-! ## Texts -/

theorem parse_eq_ok_iff (text : List Char) (formula : Formula Nat) :
    parse (String.ofList text) = .ok formula ↔
      ∃ tokens, Token.scan text = .ok tokens ∧ Derives formula tokens := by
  rw [parse, String.toList_ofList, bind_eq_ok_iff]
  simp only [ofTokens_eq_ok_iff]

/-- No tokens spell two formulas. -/
theorem Derives.unique {tokens : List Token} {formula formula' : Formula Nat}
    (derives : Derives formula tokens) (derives' : Derives formula' tokens) : formula = formula' := by
  rw [← ofTokens_eq_ok_iff] at derives derives'
  exact Except.ok.inj (derives.symm.trans derives')

/-- A word with an opening bracket behind it is the name of a call, and the call has arguments. -/
theorem Derives.exists_call {name : String} {rest : List Token} {formula : Formula Nat}
    (derives : Derives formula (.word name :: .openRound :: rest)) :
    ∃ args, args ≠ [] ∧ formula = .call name args := by
  cases derives with
  | call _ parts nonempty _ => exact ⟨_, by simpa using nonempty, rfl⟩

/-- A text is read as a formula exactly if it has tokens that spell the formula, to the last one.  No
tokens spell two formulas, and a word stands for itself only if no opening bracket follows it. -/
theorem parse_eq_ok_iff_derives (text : String) :
    (∀ formula, parse text = .ok formula ↔
      ∃ tokens, Token.scan text.toList = .ok tokens ∧ Derives formula tokens) ∧
    (∀ tokens formula formula', Derives formula tokens → Derives formula' tokens →
      formula = formula') ∧
    ∀ name rest formula, Derives formula (.word name :: .openRound :: rest) →
      ∃ args, args ≠ [] ∧ formula = call name args := by
  refine ⟨fun formula => ?_, fun _ _ _ => Derives.unique, fun _ _ _ => Derives.exists_call⟩
  rw [← parse_eq_ok_iff, String.ofList_toList]

theorem parse_eq_ok_iff_derives_nested :
    parse "add(floor,[@0,-1])" =
      .ok (call "add" [literal (.string "floor"), list [slot 0, literal (.int (-1))]]) ∧
    (∀ formula, Derives formula [.word "add", .openRound, .word "floor", .comma, .openSquare, .slot 0,
      .comma, .int (-1), .closeSquare, .closeRound] →
        formula = call "add" [literal (.string "floor"), list [slot 0, literal (.int (-1))]]) ∧
    ∀ formula, ¬Derives formula [.word "add", .openRound, .slot 0, .comma, .closeRound] := by
  obtain ⟨accepts, unique, -⟩ := parse_eq_ok_iff_derives "add(floor,[@0,-1])"
  have inner : Derives (list [slot 0, literal (.int (-1))])
      [.openSquare, .slot 0, .comma, .int (-1), .closeSquare] :=
    .list [(_, _), (_, _)] (List.forall_mem_cons.2 ⟨.slot 0, List.forall_mem_singleton.2 (.int (-1))⟩)
  have outer : Derives (call "add" [literal (.string "floor"), list [slot 0, literal (.int (-1))]])
      [.word "add", .openRound, .word "floor", .comma, .openSquare, .slot 0, .comma, .int (-1),
        .closeSquare, .closeRound] :=
    .call "add" [(_, _), (_, _)] (by simp)
      (List.forall_mem_cons.2 ⟨.word "floor", List.forall_mem_singleton.2 inner⟩)
  refine ⟨(accepts _).2 ⟨_, by decide +kernel, outer⟩,
    fun formula derives => unique _ _ _ derives outer, ?_⟩
  intro formula derives
  have scanned : Token.scan "add(@0,)".toList =
      .ok [.word "add", .openRound, .slot 0, .comma, .closeRound] := by decide +kernel
  have parsed := ((parse_eq_ok_iff_derives "add(@0,)").1 formula).2 ⟨_, scanned, derives⟩
  have failed : parse "add(@0,)" = .error .itemExpected := by
    rw [parse, scanned]
    rfl
  rw [failed] at parsed
  cases parsed

end Formula

end FormulaFusion
