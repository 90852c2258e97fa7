import FormulaFusion.Text.CombiningMark
import FormulaFusion.Text.Invisible

/-!
# Quoted words

`quoted` shows a word of letters, digits and underscores between double quotes.  A character that
could not be read off the displayed text, because it combines with the one before it or is
invisible, is shown as an escape with its code point.
-/

namespace FormulaFusion

/-- Whether a character cannot be read off the displayed text. -/
def isEscaped (c : Char) : Bool := isCombiningMark c || isInvisible c

/-- A character of a quoted word: itself, or an escape with its code point. -/
def quotedChar (c : Char) : List Char :=
  if isEscaped c then '\\' :: 'u' :: '\x7b' :: Nat.toDigits 16 c.toNat ++ ['\x7d'] else [c]

/-- A word between double quotes. -/
def quoted (word : List Char) : List Char := '"' :: word.flatMap quotedChar ++ ['"']

end FormulaFusion
