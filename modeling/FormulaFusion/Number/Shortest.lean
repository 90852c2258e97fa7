import FormulaFusion.Number.Scientific

/-!
# The shortest decimal of a double

`Binary64.shortest` is the decimal with the fewest digits that reads back as the same double; of two
such decimals it is the nearer one, and of two equally near the larger.  `Binary64.plain` writes it
positionally, with at least one digit after the point, for magnitudes from `10 ^ (-4)` up to
`10 ^ 16`, and with an exponent elsewhere.
-/

namespace FormulaFusion

namespace Binary64

/-- The two decimals of `digits` significant digits that enclose a positive finite double, the
nearer one first. -/
def neighbours (x : Binary64) (digits : Nat) : List Decimal :=
  let num := x.steps * Nat.pow 10 (323 + digits)
  let den := Nat.pow 2 1074 * Nat.pow 10 x.decade
  let exponent : Int := x.decade - (323 + digits : Nat)
  let below : Decimal := ⟨num / den, exponent⟩
  let above : Decimal := ⟨num / den + 1, exponent⟩
  if 2 * (num % den) < den then [below, above] else [above, below]

/-- The shortest decimal that reads back as the positive finite double `x`; seventeen digits always
suffice. -/
def shortest (x : Binary64) : Decimal :=
  let candidates := (List.range 17).flatMap fun n => x.neighbours (n + 1)
  (candidates.find? fun d => (d.toBinary64 false).magnitude == x.magnitude).getD ⟨0, 0⟩

end Binary64

namespace Decimal

/-- The same decimal with a coefficient that does not end in zero; at most `fuel` zeros go. -/
def trim : Nat → Decimal → Decimal
  | 0, d => d
  | fuel + 1, d =>
    if d.coefficient % 10 = 0 then trim fuel ⟨d.coefficient / 10, d.exponent + 1⟩ else d

/-- A decimal written out around its point, with at least one digit on either side. -/
def positional (d : Decimal) : List Char :=
  let places := (-d.exponent).toNat
  let digits := padded (places + 1) (d.coefficient * Nat.pow 10 d.exponent.toNat)
  let whole := digits.length - places
  digits.take whole ++ '.' :: (if places = 0 then ['0'] else digits.drop whole)

/-- A decimal with one digit before the point and an exponent. -/
def exponential (d : Decimal) : List Char :=
  let digits := Nat.toDigits 10 d.coefficient
  let exponent := d.scale - 1
  digits.take 1 ++ (if digits.length = 1 then [] else '.' :: digits.drop 1) ++
    'e' :: (if exponent < 0 then ['-'] else []) ++ Nat.toDigits 10 exponent.natAbs

/-- Positional notation for decimals from `10 ^ (-4)` up to `10 ^ 16`, an exponent elsewhere. -/
def plain (d : Decimal) : List Char :=
  if -4 < d.scale ∧ d.scale ≤ 16 then d.positional else d.exponential

end Decimal

namespace Binary64

/-- The shortest text of a double that reads back as the same double. -/
def plain (x : Binary64) : List Char :=
  if x.isNaN then ['N', 'a', 'N']
  else
    let sign := if x.isNegative then ['-'] else []
    if x.isInfinite then sign ++ ['i', 'n', 'f']
    else if x.magnitude = 0 then sign ++ ['0', '.', '0']
    else sign ++ (x.shortest.trim 17).plain

end Binary64

end FormulaFusion
