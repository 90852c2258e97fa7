import FormulaFusion.Formula.Basic
import FormulaFusion.Formula.Token

/-!
# Reading formulas

`Formula.parse` reads a formula from its text.  The tokens are taken one by one against a stack of
the calls and lists that are still open: `readItem` stands where a formula must begin and
`afterItem` where one has just ended.
-/

namespace FormulaFusion

/-- A call or list that is still open, with the formulas read so far, last first. -/
inductive OpenItem where
  | call (name : String) (done : List (Formula Nat))
  | list (done : List (Formula Nat))

namespace OpenItem

/-- The token that closes the item. -/
def closer : OpenItem → Token
  | call .. => .closeRound
  | list _ => .closeSquare

/-- The item with one more formula. -/
def push (formula : Formula Nat) : OpenItem → OpenItem
  | call name done => call name (formula :: done)
  | list done => list (formula :: done)

/-- The finished formula. -/
def close : OpenItem → Formula Nat
  | call name done => .call name done.reverse
  | list done => .list done.reverse

end OpenItem

namespace Formula

/-- A word that is not called: one of the literals written as words, or a string. -/
def ofWord (name : String) : Formula Nat :=
  if name = "None" then literal .none
  else if name = "True" then literal (.bool true)
  else if name = "False" then literal (.bool false)
  else literal (.string name)

mutual

/-- Reads a formula and goes on after it; `stack` holds the open items, innermost first. -/
def readItem (stack : List OpenItem) : List Token → Except SyntaxError (Formula Nat)
  | .int value :: rest => afterItem stack (literal (.int value)) rest
  | .float value :: rest => afterItem stack (literal (.float value)) rest
  | .slot index :: rest => afterItem stack (slot index) rest
  | .openSquare :: .closeSquare :: rest => afterItem stack (list []) rest
  | .openSquare :: rest => readItem (.list [] :: stack) rest
  | .word _ :: .openRound :: .closeRound :: _ => .error .noArguments
  | .word name :: .openRound :: rest => readItem (.call name [] :: stack) rest
  | .word name :: rest => afterItem stack (ofWord name) rest
  | _ => .error .itemExpected

/-- Goes on after the formula `item`: the innermost open item takes it, and the text may end only
when none is open. -/
def afterItem (stack : List OpenItem) (item : Formula Nat) :
    List Token → Except SyntaxError (Formula Nat)
  | [] =>
    match stack with
    | [] => .ok item
    | innermost :: _ => .error (.unclosed innermost.closer none)
  | token :: rest =>
    match stack with
    | [] => .error (.trailing token)
    | innermost :: outer =>
      if token = .comma then readItem (innermost.push item :: outer) rest
      else if token = innermost.closer then afterItem outer (innermost.push item).close rest
      else .error (.unclosed innermost.closer (some token))

end

/-- The formula that a sequence of tokens spells. -/
def ofTokens (tokens : List Token) : Except SyntaxError (Formula Nat) := readItem [] tokens

/-- The formula that a text spells. -/
def parse (text : String) : Except SyntaxError (Formula Nat) :=
  (Token.scan text.toList).bind ofTokens

end Formula

end FormulaFusion
