import FormulaFusion.Literal
import FormulaFusion.Formula.Numeral
import FormulaFusion.Number.Shortest
import FormulaFusion.Text.Alphanumeric
import FormulaFusion.Text.Quoted

/-!
# Tokens of formula text

`Token.scan` cuts a text into tokens: numbers, slots, words, brackets and commas, with blanks
between them skipped.  `SyntaxError` gathers the reasons for which a text is not a formula, those
found later by the parser included.
-/

namespace FormulaFusion

/-- A token of formula text. -/
inductive Token where
  | int (value : Int64)
  | float (value : Binary64)
  | slot (index : Nat)
  | word (name : String)
  | openRound
  | closeRound
  | openSquare
  | closeSquare
  | comma
  deriving DecidableEq, Repr

/-- A token as errors show it. -/
def Token.describe : Token → String
  | int value => "Int(" ++ String.ofList (Literal.integerText value.toInt) ++ ")"
  | float value => "Float(" ++ String.ofList value.plain ++ ")"
  | slot index => "Slot(" ++ toString index ++ ")"
  | word name => "Ident(" ++ String.ofList (quoted name.toList) ++ ")"
  | openRound => "LParen"
  | closeRound => "RParen"
  | openSquare => "LBracket"
  | closeSquare => "RBracket"
  | comma => "Comma"

/-- Why a text is not a formula. -/
inductive SyntaxError where
  | invalidSlot (digits : String)
  | negatedWord (word : String)
  | invalidFloat (numeral : String)
  | invalidInteger (numeral : String)
  | unexpectedCharacter (character : Char)
  | itemExpected
  | noArguments
  | unclosed (expected : Token) (found : Option Token)
  | trailing (token : Token)
  deriving DecidableEq, Repr

/-- The wording of a syntax error. -/
def SyntaxError.message : SyntaxError → String
  | invalidSlot digits => "Invalid slot reference: '@" ++ digits ++ "'"
  | negatedWord word => "Unexpected negated word: '-" ++ word ++ "'"
  | invalidFloat numeral => "Failed to parse float: " ++ numeral
  | invalidInteger numeral => "Failed to parse integer: " ++ numeral
  | unexpectedCharacter character =>
    "Unexpected character: '" ++ String.singleton character ++ "'"
  | itemExpected => "Expected literal, slot, call, or list"
  | noArguments => "Call requires at least one argument"
  | unclosed expected none => "Expected " ++ expected.describe ++ ", found None"
  | unclosed expected (some token) =>
    "Expected " ++ expected.describe ++ ", found Some(" ++ token.describe ++ ")"
  | trailing token => "Unexpected token after expression: " ++ token.describe

namespace Token

/-- Characters that separate tokens and mean nothing else. -/
def isBlank (c : Char) : Bool := c == ' ' || c == '\t' || c == '\n' || c == '\r'

/-- Characters of words. -/
def isWordChar (c : Char) : Bool := isAlphanumeric c || c == '_'

/-- The tokens of one character. -/
def punctuation? : Char → Option Token
  | '(' => some openRound
  | ')' => some closeRound
  | '[' => some openSquare
  | ']' => some closeSquare
  | ',' => some comma
  | _ => none

/-- Whether a text starts with a letter of ASCII. -/
def startsWithLetter : List Char → Bool
  | [] => false
  | c :: _ => c.isAlpha

/-- The number that a numeral stands for: a double if it has a point or an exponent. -/
def ofNumeral (numeral : List Char) : Except SyntaxError Token :=
  if numeral.any fun c => c == '.' || c == 'e' || c == 'E' then
    match Numeral.readFloat? numeral with
    | some value => .ok (float value)
    | none => .error (.invalidFloat (String.ofList numeral))
  else
    match Numeral.readInteger? numeral with
    | some value => .ok (int value)
    | none => .error (.invalidInteger (String.ofList numeral))

/-- The token of a word; two words are numbers. -/
def ofWord (name : List Char) : Token :=
  if name = ['i', 'n', 'f'] then float (.infinity false)
  else if name = ['n', 'a', 'n'] then float .nan
  else word (String.ofList name)

/-- The token that starts with the character `c`, which is no blank, and what follows it. -/
def next (c : Char) (rest : List Char) : Except SyntaxError (Token × List Char) :=
  match punctuation? c with
  | some token => .ok (token, rest)
  | none =>
    if c = '@' then
      match Numeral.readSlot? (rest.takeWhile Char.isDigit) with
      | some index => .ok (slot index, rest.dropWhile Char.isDigit)
      | none => .error (.invalidSlot (String.ofList (rest.takeWhile Char.isDigit)))
    else if c = '-' && startsWithLetter rest then
      if rest.takeWhile isWordChar = ['i', 'n', 'f'] then
        .ok (float (.infinity true), rest.dropWhile isWordChar)
      else .error (.negatedWord (String.ofList (rest.takeWhile isWordChar)))
    else if c.isDigit || c == '-' || c == '+' || c == '.' then
      (ofNumeral (c :: (Numeral.spanNumeral false rest).1)).map fun token =>
        (token, (Numeral.spanNumeral false rest).2)
    else if c.isAlpha || c == '_' then
      .ok (ofWord (c :: rest.takeWhile isWordChar), rest.dropWhile isWordChar)
    else .error (.unexpectedCharacter c)

theorem length_dropWhile_le (p : Char → Bool) (chars : List Char) :
    (chars.dropWhile p).length ≤ chars.length :=
  (List.dropWhile_sublist p).length_le

/-- What follows a token is no longer than the text after its first character. -/
theorem length_next_le {c : Char} {rest after : List Char} {token : Token}
    (read : next c rest = .ok (token, after)) : after.length ≤ rest.length := by
  have numeral := congrArg List.length (Numeral.spanNumeral_append false rest)
  rw [List.length_append] at numeral
  unfold next at read
  split at read
  · cases read; exact Nat.le_refl _
  · split at read
    · split at read
      · cases read; exact length_dropWhile_le _ _
      · cases read
    · split at read
      · split at read
        · cases read; exact length_dropWhile_le _ _
        · cases read
      · split at read
        · cases lexed : ofNumeral (c :: (Numeral.spanNumeral false rest).1) with
          | error e => rw [lexed] at read; cases read
          | ok t => rw [lexed] at read; cases read; omega
        · split at read
          · cases read; exact length_dropWhile_le _ _
          · cases read

/-- The tokens of a text. -/
def scan : List Char → Except SyntaxError (List Token)
  | [] => .ok []
  | c :: rest =>
    if isBlank c then scan rest
    else
      match read : next c rest with
      | .error e => .error e
      | .ok (token, after) =>
        have := length_next_le read
        (scan after).map (token :: ·)
termination_by chars => chars.length

end Token

end FormulaFusion
