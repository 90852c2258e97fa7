import Mathlib.Data.List.TakeWhile
import Mathlib.Tactic.SplitIfs
import FormulaFusion.Formula.Token
import FormulaFusion.Proofs.Formula.Numeral
import FormulaFusion.Proofs.Success

/-!
# Scanning spelled tokens

No token goes on across a blank or a punctuation mark, so a text can be scanned in parts that meet at
one (`Token.Separates.scan_append`).  Punctuation is what stands after every item of a formula, so it is
enough to scan a spelled number, slot or word by itself.  `Token.IsWord` says which strings are scanned
as words that stand for themselves, and every word that scanning finds has such a form
(`Token.isName_of_mem_scan`).
-/

namespace FormulaFusion

namespace Token

/-! ## Separators -/

/-- Blanks and punctuation: no token that begins before such a character goes on after it. -/
def isSeparator (c : Char) : Bool := isBlank c || (punctuation? c).isSome

/-- The place between two parts of a text is at one of its ends or next to a separator. -/
def Separates (front back : List Char) : Prop :=
  (∀ c ∈ front.getLast?, isSeparator c = true) ∨ ∀ c ∈ back.head?, isSeparator c = true

/-- Nothing or punctuation follows. -/
def Stops (rest : List Char) : Prop := ∀ c ∈ rest.head?, (punctuation? c).isSome = true

theorem stops_cons {c : Char} {token : Token} (mark : punctuation? c = some token)
    (rest : List Char) : Stops (c :: rest) := by
  rintro _ ⟨⟩
  rw [mark]
  rfl

theorem Stops.separates {rest : List Char} (stops : Stops rest) (chars : List Char) :
    Separates chars rest := by
  refine .inr fun c mem => ?_
  rw [isSeparator, stops c mem, Bool.or_true]

/-- A property that no separator has. -/
theorem eq_false_of_isSeparator {c : Char} (separator : isSeparator c = true) (p : Char → Bool)
    (never : [' ', '\t', '\n', '\r', '(', ')', '[', ']', ','].any p = false) : p c = false := by
  rw [List.any_eq_false] at never
  refine Bool.eq_false_iff.2 (never c ?_)
  rcases Bool.or_eq_true _ _ ▸ separator with blank | mark
  · unfold isBlank at blank
    simp only [Bool.or_eq_true, beq_iff_eq] at blank
    obtain ((rfl | rfl) | rfl) | rfl := blank <;> decide
  · unfold punctuation? at mark
    split at mark <;> simp_all

namespace Separates

variable {front back : List Char}

/-- The last part of the text in front of the place. -/
theorem of_suffix (separates : Separates front back) {rest : List Char} (suffix : rest <:+ front) :
    Separates rest back := by
  obtain ⟨before, rfl⟩ := suffix
  refine separates.imp_left fun last c mem => last c ?_
  rw [List.getLast?_append, Option.mem_def.1 mem]
  rfl

/-- If the text in front of the place is one character and no separator, one must follow. -/
theorem head_of_singleton {c : Char} (separates : Separates [c] back)
    (inside : isSeparator c = false) : ∀ d ∈ back.head?, isSeparator d = true := by
  refine separates.resolve_left fun last => ?_
  rw [last c rfl] at inside
  cases inside

/-- A run of characters none of which is a separator ends before the place. -/
theorem while_append {c : Char} {rest : List Char} (separates : Separates (c :: rest) back)
    (inside : isSeparator c = false) (p : Char → Bool)
    (never : [' ', '\t', '\n', '\r', '(', ')', '[', ']', ','].any p = false) :
    (rest ++ back).takeWhile p = rest.takeWhile p ∧
      (rest ++ back).dropWhile p = rest.dropWhile p ++ back := by
  induction rest generalizing c with
  | nil =>
    cases back with
    | nil => exact ⟨rfl, rfl⟩
    | cons d back =>
      have other := eq_false_of_isSeparator (separates.head_of_singleton inside d rfl) p never
      simp [other]
  | cons d rest ih =>
    rw [List.cons_append, List.takeWhile_cons, List.takeWhile_cons, List.dropWhile_cons,
      List.dropWhile_cons]
    cases holds : p d with
    | false => simp
    | true =>
      have inside' : isSeparator d = false := by
        refine Bool.eq_false_iff.2 fun separator => ?_
        rw [eq_false_of_isSeparator separator p never] at holds
        cases holds
      simpa using ih (separates.of_suffix (List.suffix_cons c _)) inside'

theorem spanNumeral_append {c : Char} {rest : List Char} (separates : Separates (c :: rest) back)
    (inside : isSeparator c = false) (signed : Bool) :
    Numeral.spanNumeral signed (rest ++ back) =
      ((Numeral.spanNumeral signed rest).1, (Numeral.spanNumeral signed rest).2 ++ back) := by
  have never : ∀ d, isSeparator d = true →
      (d.isDigit || d == '.' || d == 'e' || d == 'E' || d == '-' || d == '+') = false :=
    fun d separator => eq_false_of_isSeparator separator (fun d => d.isDigit || d == '.' ||
      d == 'e' || d == 'E' || d == '-' || d == '+') rfl
  induction rest generalizing c signed with
  | nil =>
    cases back with
    | nil => rfl
    | cons d back =>
      have other := never d (separates.head_of_singleton inside d rfl)
      simp only [Bool.or_eq_false_iff] at other
      simp [Numeral.spanNumeral, other]
  | cons d rest ih =>
    rw [List.cons_append, Numeral.spanNumeral, Numeral.spanNumeral]
    dsimp only
    split_ifs with accepted
    · have inside' : isSeparator d = false := by
        refine Bool.eq_false_iff.2 fun separator => ?_
        have other := never d separator
        simp_all
      rw [ih (separates.of_suffix (List.suffix_cons c _)) inside']
    · rfl

theorem startsWithLetter_append {c : Char} {rest : List Char}
    (separates : Separates (c :: rest) back) (inside : isSeparator c = false) :
    startsWithLetter (rest ++ back) = startsWithLetter rest := by
  cases rest with
  | nil =>
    cases back with
    | nil => rfl
    | cons d back =>
      exact eq_false_of_isSeparator (separates.head_of_singleton inside d rfl) Char.isAlpha rfl
  | cons d rest => rfl

/-- What follows the place does not change a token in front of it, nor the failure to read one. -/
theorem next_append {c : Char} {rest : List Char} (separates : Separates (c :: rest) back)
    (visible : isBlank c = false) :
    next c (rest ++ back) = (next c rest).map fun found => (found.1, found.2 ++ back) := by
  cases mark : punctuation? c with
  | some token => rw [next, next, mark, map_ok]
  | none =>
    have inside : isSeparator c = false := by rw [isSeparator, visible, mark]; rfl
    obtain ⟨digits, behindDigits⟩ := separates.while_append inside Char.isDigit rfl
    obtain ⟨word, behindWord⟩ := separates.while_append inside isWordChar rfl
    rw [next, next, mark, digits, behindDigits, word, behindWord,
      separates.startsWithLetter_append inside, separates.spanNumeral_append inside]
    dsimp only
    split_ifs
    · split <;> rfl
    · rfl
    · rfl
    · rw [map_map]
    · rfl
    · rfl

end Separates

/-- What follows a token is the end of the text. -/
theorem suffix_of_next {c : Char} {rest after : List Char} {token : Token}
    (read : next c rest = .ok (token, after)) : after <:+ rest := by
  unfold next at read
  split at read
  · cases read
    exact List.suffix_refl _
  · split_ifs at read
    · split at read
      · cases read
        exact List.dropWhile_suffix _
      · cases read
    · cases read
      exact List.dropWhile_suffix _
    · obtain ⟨number, -, same⟩ := (map_eq_ok_iff _ _ _).1 read
      obtain ⟨-, rfl⟩ := Prod.mk.inj same
      exact ⟨_, Numeral.spanNumeral_append false rest⟩
    · cases read
      exact List.dropWhile_suffix _

/-! ## Scanning in parts -/

theorem scan_blank {c : Char} (blank : isBlank c = true) (rest : List Char) :
    scan (c :: rest) = scan rest := by
  rw [scan, if_pos blank]

theorem scan_cons {c : Char} (visible : isBlank c = false) (rest : List Char) :
    scan (c :: rest) = (next c rest).bind fun found => (scan found.2).map (found.1 :: ·) := by
  rw [scan, if_neg (by simp [visible])]
  split
  · next failed => rw [failed, bind_error]
  · next found =>
    dsimp only
    rw [found, bind_ok]

theorem scan_cons_of_next {c : Char} {rest after : List Char} {token : Token}
    (visible : isBlank c = false) (read : next c rest = .ok (token, after)) :
    scan (c :: rest) = (scan after).map (token :: ·) := by
  rw [scan_cons visible, read, bind_ok]

theorem scan_punctuation {c : Char} {token : Token} (mark : punctuation? c = some token)
    (rest : List Char) : scan (c :: rest) = (scan rest).map (token :: ·) := by
  refine scan_cons_of_next ?_ ?_
  · unfold punctuation? at mark
    split at mark <;> first | rfl | cases mark
  · rw [next, mark]

/-- A text is scanned in parts at a place that separates them: the tokens of the front come first, and
so does a failure in the front. -/
theorem Separates.scan_append {front back : List Char} (separates : Separates front back) :
    scan (front ++ back) =
      (scan front).bind fun tokens => (scan back).map (tokens ++ ·) := by
  induction count : front.length using Nat.strongRecOn generalizing front with
  | _ count' ih =>
  subst count
  cases front with
  | nil =>
    rw [List.nil_append, scan, bind_ok]
    cases scan back <;> rfl
  | cons c rest =>
    cases blank : isBlank c with
    | true =>
      rw [List.cons_append, scan_blank blank, scan_blank blank]
      exact ih _ (by simp) (separates.of_suffix (List.suffix_cons c rest)) rfl
    | false =>
      rw [List.cons_append, scan_cons blank, scan_cons blank, separates.next_append blank]
      cases read : next c rest with
      | error e => rfl
      | ok found =>
        obtain ⟨token, after⟩ := found
        have suffix := suffix_of_next read
        have shorter : after.length < (c :: rest).length := by
          have := suffix.length_le
          simp only [List.length_cons]
          omega
        rw [map_ok, bind_ok, bind_ok,
          ih _ shorter (separates.of_suffix (suffix.trans (List.suffix_cons c rest))) rfl]
        cases scan after with
        | error e => rfl
        | ok tokens => cases scan back <;> rfl

/-- A text is scanned by itself if punctuation follows. -/
theorem scan_append {chars : List Char} {tokens : List Token} (run : scan chars = .ok tokens)
    {rest : List Char} (stops : Stops rest) :
    scan (chars ++ rest) = (scan rest).map (tokens ++ ·) := by
  rw [(stops.separates chars).scan_append, run, bind_ok]

/-- The tokens are found in the text one after the other, with blanks between them. -/
inductive Scans : List Char → List Token → Prop
  | nil : Scans [] []
  | blank {c : Char} {rest : List Char} {tokens : List Token} : isBlank c = true →
      Scans rest tokens → Scans (c :: rest) tokens
  | token {c : Char} {rest after : List Char} {token : Token} {tokens : List Token} :
      isBlank c = false → next c rest = .ok (token, after) → Scans after tokens →
        Scans (c :: rest) (token :: tokens)

theorem scans_of_scan {chars : List Char} {tokens : List Token} (run : scan chars = .ok tokens) :
    Scans chars tokens := by
  induction count : chars.length using Nat.strongRecOn generalizing chars tokens with
  | _ count' ih =>
  subst count
  cases chars with
  | nil =>
    rw [scan] at run
    cases run
    exact .nil
  | cons c rest =>
    cases blank : isBlank c with
    | true =>
      rw [scan_blank blank] at run
      exact .blank blank (ih _ (by simp) run rfl)
    | false =>
      rw [scan_cons blank] at run
      obtain ⟨⟨token, after⟩, read, others⟩ := (bind_eq_ok_iff _ _ _).1 run
      obtain ⟨tokens, behind, rfl⟩ := (map_eq_ok_iff _ _ _).1 others
      have shorter : after.length < (c :: rest).length := by
        have := length_next_le read
        simp only [List.length_cons]
        omega
      exact .token blank read (ih _ shorter behind rfl)

/-! ## Words -/

/-- Whether a character may begin a word. -/
def startsWord (c : Char) : Bool := c.isAlpha || c == '_'

/-- A letter or underscore followed by letters, digits and underscores. -/
def IsName (chars : List Char) : Prop :=
  ∃ first rest, chars = first :: rest ∧ startsWord first = true ∧ rest.all isWordChar = true

/-- The string has the form of a word and is not the spelling of another literal. -/
def IsWord (name : String) : Prop :=
  IsName name.toList ∧ name ∉ ["None", "True", "False", "inf", "nan"]

theorem isName_cons_iff (first : Char) (rest : List Char) :
    IsName (first :: rest) ↔ startsWord first = true ∧ rest.all isWordChar = true := by
  constructor
  · rintro ⟨_, _, ⟨⟩, form⟩
    exact form
  · exact fun form => ⟨first, rest, rfl, form⟩

instance : DecidablePred IsName
  | [] => isFalse nofun
  | first :: rest => decidable_of_iff _ (isName_cons_iff first rest).symm

instance : DecidablePred IsWord := fun name =>
  inferInstanceAs (Decidable (IsName name.toList ∧ name ∉ ["None", "True", "False", "inf", "nan"]))

theorem isDigit_eq_false_of_startsWord {c : Char} (start : startsWord c = true) :
    c.isDigit = false := by
  -- Letters and the underscore come after the digits.
  have later : '9'.toNat < c.toNat := by
    rcases Bool.or_eq_true _ _ ▸ start with letter | underscore
    · rcases Bool.or_eq_true _ _ ▸ letter with upper | lower
      · have low : 'A'.val ≤ c.val := (of_decide_eq_true upper).1
        exact Nat.lt_of_lt_of_le (by decide) (UInt32.le_iff_toNat_le.1 low)
      · have low : 'a'.val ≤ c.val := of_decide_eq_true (Bool.and_eq_true_iff.1 lower).1
        exact Nat.lt_of_lt_of_le (by decide) (UInt32.le_iff_toNat_le.1 low)
    · rw [beq_iff_eq.1 underscore]
      decide
  rw [Bool.eq_false_iff]
  intro digit
  exact absurd (Char.isDigit_iff_toNat.1 digit).2 (Nat.not_le.2 later)

/-- A character that begins a word is none of the marks that begin other tokens. -/
theorem ne_of_startsWord {c d : Char} (start : startsWord c = true) (other : startsWord d = false) :
    c ≠ d := by
  rintro rfl
  rw [start] at other
  cases other

theorem punctuation?_eq_none_of_startsWord {c : Char} (start : startsWord c = true) :
    punctuation? c = none := by
  unfold punctuation?
  split <;> first | rfl | cases start

theorem next_of_startsWord {c : Char} (start : startsWord c = true) (rest : List Char) :
    next c rest = .ok (ofWord (c :: rest.takeWhile isWordChar), rest.dropWhile isWordChar) := by
  have at_sign : c ≠ '@' := ne_of_startsWord start rfl
  have minus : c ≠ '-' := ne_of_startsWord start rfl
  have plus : c ≠ '+' := ne_of_startsWord start rfl
  have point : c ≠ '.' := ne_of_startsWord start rfl
  have digit := isDigit_eq_false_of_startsWord start
  rw [next, punctuation?_eq_none_of_startsWord start]
  dsimp only
  rw [if_neg at_sign, if_neg (by simp [minus]), if_neg (by simp [digit, minus, plus, point]),
    if_pos (show (c.isAlpha || c == '_') = true from start)]

theorem scan_cons_of_last {c : Char} {rest : List Char} {token : Token}
    (visible : isBlank c = false) (read : next c rest = .ok (token, [])) :
    scan (c :: rest) = .ok [token] := by
  rw [scan_cons_of_next visible read, scan, map_ok]

theorem scan_name {name : List Char} (isName : IsName name) : scan name = .ok [ofWord name] := by
  obtain ⟨first, others, rfl, start, each⟩ := isName
  rw [List.all_eq_true] at each
  have visible : isBlank first = false := by
    unfold isBlank
    simp [ne_of_startsWord start (d := ' ') rfl, ne_of_startsWord start (d := '\t') rfl,
      ne_of_startsWord start (d := '\n') rfl, ne_of_startsWord start (d := '\r') rfl]
  apply scan_cons_of_last visible
  rw [next_of_startsWord start, List.takeWhile_eq_self_iff.2 each,
    List.dropWhile_eq_nil_iff.2 each]

/-- A word that stands for itself is scanned as such. -/
theorem ofWord_of_isWord {name : String} (isWord : IsWord name) :
    ofWord name.toList = word name := by
  have apart : ∀ chars : List Char, String.ofList chars ∈ ["None", "True", "False", "inf", "nan"] →
      name.toList ≠ chars := by
    rintro chars listed rfl
    rw [String.ofList_toList] at listed
    exact isWord.2 listed
  rw [ofWord, if_neg (apart _ (by decide)), if_neg (apart _ (by decide)), String.ofList_toList]

/-! ## Slots -/

theorem scan_slot {index : Nat} (fits : index < 2 ^ 64) :
    scan ('@' :: Nat.toDigits 10 index) = .ok [slot index] := by
  have digits : ∀ c ∈ Nat.toDigits 10 index, c.isDigit = true :=
    fun c => Numeral.isDigit_of_mem_toDigits
  apply scan_cons_of_last rfl
  rw [next, List.takeWhile_eq_self_iff.2 digits, List.dropWhile_eq_nil_iff.2 digits,
    Numeral.readSlot?_toDigits fits]
  rfl

/-! ## Numbers -/

theorem spanNumeral_digits {digits : List Char} (each : ∀ c ∈ digits, c.isDigit = true)
    (tail : List Char) : Numeral.spanNumeral false (digits ++ tail) =
      (digits ++ (Numeral.spanNumeral false tail).1, (Numeral.spanNumeral false tail).2) := by
  induction digits with
  | nil => rfl
  | cons c digits ih =>
    have digit := each c List.mem_cons_self
    have mark : (c == 'e' || c == 'E') = false := by
      rw [Bool.or_eq_false_iff, beq_eq_false_iff_ne, beq_eq_false_iff_ne]
      constructor
      · rintro rfl
        cases digit
      · rintro rfl
        cases digit
    rw [List.cons_append, Numeral.spanNumeral]
    simp only [digit, mark, Bool.true_or, if_true]
    rw [ih fun c mem => each c (List.mem_cons_of_mem _ mem)]
    rfl

/-- A numeral is scanned as the number that it stands for. -/
theorem scan_numeral {c : Char} {lexeme : List Char} {token : Token}
    (start : (c.isDigit || c == '-' || c == '+' || c == '.') = true)
    (unsigned : c = '-' → startsWithLetter lexeme = false)
    (span : Numeral.spanNumeral false lexeme = (lexeme, []))
    (read : ofNumeral (c :: lexeme) = .ok token) : scan (c :: lexeme) = .ok [token] := by
  have ne {d : Char} (other : (d.isDigit || d == '-' || d == '+' || d == '.') = false) : c ≠ d := by
    rintro rfl
    rw [start] at other
    cases other
  have visible : isBlank c = false := by
    unfold isBlank
    simp [ne (d := ' ') rfl, ne (d := '\t') rfl, ne (d := '\n') rfl, ne (d := '\r') rfl]
  have punctuation : punctuation? c = none := by
    unfold punctuation?
    split <;> first | rfl | cases start
  apply scan_cons_of_last visible
  rw [next, punctuation]
  dsimp only
  rw [if_neg (ne rfl), if_neg (by simpa using unsigned), if_pos start, span, read, map_ok]

theorem startsWithLetter_of_isDigit {c : Char} (digit : c.isDigit = true) (rest : List Char) :
    startsWithLetter (c :: rest) = false := by
  rw [startsWithLetter, Bool.eq_false_iff]
  intro letter
  rw [isDigit_eq_false_of_startsWord (by simp [startsWord, letter])] at digit
  cases digit

theorem ofNumeral_integerText (value : Int64) :
    ofNumeral (Literal.integerText value.toInt) = .ok (int value) := by
  have plain : ((Literal.integerText value.toInt).any fun c => c == '.' || c == 'e' || c == 'E') =
      false := by
    rw [List.any_eq_false]
    intro c mem
    have mark : c = '-' ∨ c.isDigit = true := by
      unfold Literal.integerText at mem
      split_ifs at mem
      · rcases List.mem_cons.1 mem with minus | digit
        · exact .inl minus
        · exact .inr (Numeral.isDigit_of_mem_toDigits digit)
      · exact .inr (Numeral.isDigit_of_mem_toDigits mem)
    simp only [Bool.or_eq_true, beq_iff_eq, not_or]
    refine ⟨⟨?_, ?_⟩, ?_⟩ <;> rintro rfl <;> simp at mark
  rw [ofNumeral, plain, if_neg Bool.false_ne_true, Numeral.readInteger?_integerText]

theorem scan_int (value : Int64) :
    scan (Literal.integerText value.toInt) = .ok [int value] := by
  have read := ofNumeral_integerText value
  have digits : ∀ c ∈ Nat.toDigits 10 value.toInt.natAbs, c.isDigit = true :=
    fun c => Numeral.isDigit_of_mem_toDigits
  obtain ⟨first, others, text⟩ := List.exists_cons_of_ne_nil
    (Nat.toDigits_ne_nil (n := value.toInt.natAbs) (b := 10))
  unfold Literal.integerText at read ⊢
  rw [text] at digits read ⊢
  have first_digit := digits first List.mem_cons_self
  have span : ∀ digits : List Char, (∀ c ∈ digits, c.isDigit = true) →
      Numeral.spanNumeral false digits = (digits, []) := by
    intro digits each
    simpa [Numeral.spanNumeral] using spanNumeral_digits each []
  split_ifs at read ⊢
  · refine scan_numeral rfl (fun _ => startsWithLetter_of_isDigit first_digit _) ?_ read
    exact span _ digits
  · refine scan_numeral (by simp [first_digit]) ?_ ?_ read
    · rintro rfl
      cases first_digit
    · exact span others fun c mem => digits c (List.mem_cons_of_mem _ mem)

theorem exists_spanNumeral_scientific {d : Decimal} (fits : d.coefficient < 10 ^ 7) :
    ∃ first lexeme, d.scientific = first :: '.' :: lexeme ∧ first.isDigit = true ∧
      Numeral.spanNumeral false ('.' :: lexeme) = ('.' :: lexeme, []) := by
  obtain ⟨first, fraction, digits, -, text⟩ := Numeral.exists_scientific_eq fits
  have isDigit : ∀ c ∈ first :: fraction, c.isDigit = true := by
    rw [← digits]
    exact fun c => Numeral.isDigit_of_mem_padded
  refine ⟨first, fraction ++ 'e' :: (if d.exponent + 6 < 0 then '-' else '+') ::
    Decimal.padded 2 (d.exponent + 6).natAbs, text, isDigit first List.mem_cons_self, ?_⟩
  have exponent : Numeral.spanNumeral false (Decimal.padded 2 (d.exponent + 6).natAbs) =
      (Decimal.padded 2 (d.exponent + 6).natAbs, []) := by
    have digits : ∀ c ∈ Decimal.padded 2 (d.exponent + 6).natAbs, c.isDigit = true :=
      fun c => Numeral.isDigit_of_mem_padded
    simpa [Numeral.spanNumeral] using spanNumeral_digits digits []
  have sign : ∀ tail, Numeral.spanNumeral true ((if d.exponent + 6 < 0 then '-' else '+') :: tail) =
      ((if d.exponent + 6 < 0 then '-' else '+') :: (Numeral.spanNumeral false tail).1,
        (Numeral.spanNumeral false tail).2) := by
    intro tail
    split_ifs <;> rfl
  have mark : ∀ tail, Numeral.spanNumeral false ('e' :: tail) =
      ('e' :: (Numeral.spanNumeral true tail).1, (Numeral.spanNumeral true tail).2) :=
    fun _ => rfl
  have point : ∀ tail, Numeral.spanNumeral false ('.' :: tail) =
      ('.' :: (Numeral.spanNumeral false tail).1, (Numeral.spanNumeral false tail).2) :=
    fun _ => rfl
  simp only [point, mark, sign, exponent,
    spanNumeral_digits fun c mem => isDigit c (List.mem_cons_of_mem _ mem)]

/-- A double is scanned as the double that is read back from its text. -/
theorem scan_float (x : Binary64) : scan x.scientific = .ok [float x.reread] := by
  by_cases isNaN : x.isNaN = true
  · have text : x.scientific = ['n', 'a', 'n'] := if_pos isNaN
    have read : x.reread = .nan := if_pos isNaN
    rw [text, read, scan_name ⟨'n', ['a', 'n'], rfl, rfl, rfl⟩]
    rfl
  by_cases infinite : x.isInfinite = true
  · have read : x.reread = .infinity x.isNegative := by simp [Binary64.reread, isNaN, infinite]
    rw [read]
    cases negative : x.isNegative with
    | false =>
      have text : x.scientific = ['i', 'n', 'f'] := by
        simp [Binary64.scientific, isNaN, infinite, negative]
      rw [text, scan_name ⟨'i', ['n', 'f'], rfl, rfl, rfl⟩]
      rfl
    | true =>
      have text : x.scientific = ['-', 'i', 'n', 'f'] := by
        simp [Binary64.scientific, isNaN, infinite, negative]
      rw [text]
      exact scan_cons_of_last rfl rfl
  · have finite : x.isFinite = true := by
      simp only [Binary64.isNaN, Binary64.isInfinite, decide_eq_true_eq] at isNaN infinite
      exact decide_eq_true (by omega)
    have fits := x.coefficient_spelled_lt
    obtain ⟨first, lexeme, text, digit, span⟩ := exists_spanNumeral_scientific fits
    have read : ofNumeral x.scientific = .ok (float x.reread) := by
      have marked : (x.scientific.any fun c => c == '.' || c == 'e' || c == 'E') = true := by
        rw [x.scientific_eq_of_isFinite finite, text]
        simp
      rw [ofNumeral, marked, if_pos rfl, x.scientific_eq_of_isFinite finite,
        Numeral.readFloat?_scientific fits, x.reread_of_isFinite finite]
    rw [x.scientific_eq_of_isFinite finite, text] at read ⊢
    cases negative : x.isNegative with
    | false =>
      rw [negative] at read
      refine scan_numeral (by simp [digit]) ?_ span read
      rintro rfl
      cases digit
    | true =>
      rw [negative] at read
      have span' : Numeral.spanNumeral false (first :: '.' :: lexeme) =
          (first :: '.' :: lexeme, []) := by
        rw [← List.singleton_append, spanNumeral_digits (by simpa using digit), span]
      exact scan_numeral rfl (fun _ => startsWithLetter_of_isDigit digit _) span' read

/-! ## Words that scanning finds -/

theorem ofNumeral_ne_word (numeral : List Char) (name : String) :
    ofNumeral numeral ≠ .ok (word name) := by
  unfold ofNumeral
  intro read
  split_ifs at read
  · split at read <;> cases read
  · split at read <;> cases read

theorem ofWord_eq_word {chars : List Char} {name : String} (eq : ofWord chars = word name) :
    name.toList = chars ∧ name ≠ "inf" ∧ name ≠ "nan" := by
  unfold ofWord at eq
  split_ifs at eq with inf nan
  obtain rfl := word.inj eq
  refine ⟨String.toList_ofList, ?_, ?_⟩
  · intro same
    exact inf (by simpa using congrArg String.toList same)
  · intro same
    exact nan (by simpa using congrArg String.toList same)

theorem isName_of_next {c : Char} {rest after : List Char} {name : String}
    (read : next c rest = .ok (word name, after)) :
    IsName name.toList ∧ name ≠ "inf" ∧ name ≠ "nan" := by
  unfold next at read
  split at read
  · next token mark =>
    obtain ⟨rfl, -⟩ := Prod.mk.inj (Except.ok.inj read)
    unfold punctuation? at mark
    split at mark <;> cases mark
  · split_ifs at read with at_sign minus infinity number start
    · split at read <;> cases read
    · cases read
    · obtain ⟨token, numeral, same⟩ := (map_eq_ok_iff _ _ _).1 read
      obtain ⟨rfl, -⟩ := Prod.mk.inj same
      exact absurd numeral (ofNumeral_ne_word _ _)
    · obtain ⟨spelled, -⟩ := Prod.mk.inj (Except.ok.inj read)
      obtain ⟨chars, apart⟩ := ofWord_eq_word spelled
      rw [chars]
      exact ⟨⟨c, _, rfl, start, List.all_takeWhile⟩, apart⟩

/-- The words that scanning finds have the form of words and are no numbers. -/
theorem isName_of_mem_scan {chars : List Char} {tokens : List Token} (run : scan chars = .ok tokens)
    {name : String} (mem : word name ∈ tokens) :
    IsName name.toList ∧ name ≠ "inf" ∧ name ≠ "nan" := by
  have scans := scans_of_scan run
  clear run
  induction scans with
  | nil => cases mem
  | blank _ _ ih => exact ih mem
  | token _ read _ ih =>
    rcases List.mem_cons.1 mem with rfl | mem
    · exact isName_of_next read
    · exact ih mem

end Token

end FormulaFusion
