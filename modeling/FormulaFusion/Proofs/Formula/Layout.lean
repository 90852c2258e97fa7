import Mathlib.Logic.Relation
import FormulaFusion.Formula.Parser
import FormulaFusion.Proofs.Formula.Scan

/-!
# Layout of formula text

Blanks mean nothing where they break no token: at the ends of a text, next to other blanks, and next
to brackets and commas (`Formula.Padded`).  However many of them are put in at such places, the text is
read as the same formula, and a text that is no formula fails for the same reason
(`Formula.parse_eq_of_relaid`).
-/

open Relation

namespace FormulaFusion

namespace Token

theorem scan_blanks {blanks : List Char} (each : ∀ c ∈ blanks, isBlank c = true)
    (rest : List Char) : scan (blanks ++ rest) = scan rest := by
  induction blanks with
  | nil => rfl
  | cons c blanks ih =>
    rw [List.cons_append, scan_blank (each c List.mem_cons_self)]
    exact ih fun d mem => each d (List.mem_cons_of_mem c mem)

/-- Blanks in front of what follows a place leave it a place between two parts. -/
theorem Separates.blanks {front back blanks : List Char} (separates : Separates front back)
    (each : ∀ c ∈ blanks, isBlank c = true) : Separates front (blanks ++ back) := by
  cases blanks with
  | nil => exact separates
  | cons c blanks =>
    refine .inr ?_
    rintro _ ⟨⟩
    rw [isSeparator, each c List.mem_cons_self, Bool.true_or]

/-- Blanks between two parts leave the tokens as they are, and the failure to find them too. -/
theorem Separates.scan_insert {front back blanks : List Char} (separates : Separates front back)
    (each : ∀ c ∈ blanks, isBlank c = true) :
    scan (front ++ (blanks ++ back)) = scan (front ++ back) := by
  rw [(separates.blanks each).scan_append, separates.scan_append, scan_blanks each]

end Token

namespace Formula

/-- The second text is the first with a run of blanks in one place: at one of its ends, next to a
blank, or next to a bracket or a comma. -/
def Padded (text padded : String) : Prop :=
  ∃ front blanks back : List Char, text.toList = front ++ back ∧
    padded.toList = front ++ (blanks ++ back) ∧ (∀ c ∈ blanks, Token.isBlank c = true) ∧
    Token.Separates front back

/-- The second text is the first with runs of blanks in any number of such places. -/
def Relaid : String → String → Prop := ReflTransGen Padded

theorem Padded.parse_eq {text padded : String} (inserted : Padded text padded) :
    parse padded = parse text := by
  obtain ⟨front, blanks, back, before, after, each, separates⟩ := inserted
  rw [parse, parse, before, after, separates.scan_insert each]

/-- Layout does not matter: a text with more blanks is read as the same formula, or is no formula for
the same reason. -/
theorem parse_eq_of_relaid {text relaid : String} (blanks : Relaid text relaid) :
    parse relaid = parse text := by
  induction blanks with
  | refl => rfl
  | tail _ inserted ih => rw [inserted.parse_eq, ih]

theorem parse_eq_of_relaid_spaced :
    (Relaid "mul(@0,2)" " mul(@0\t,2)" ∧
      parse " mul(@0\t,2)" = .ok (call "mul" [slot 0, literal (.int 2)])) ∧
    Relaid "abs(-)" "abs(-\n)" ∧ parse "abs(-\n)" = .error (.invalidInteger "-") := by
  have front : Padded "mul(@0,2)" " mul(@0,2)" :=
    ⟨[], [' '], "mul(@0,2)".toList, rfl, rfl, List.forall_mem_singleton.2 rfl, .inl nofun⟩
  have comma : Padded " mul(@0,2)" " mul(@0\t,2)" :=
    ⟨" mul(@0".toList, ['\t'], ",2)".toList, rfl, rfl, List.forall_mem_singleton.2 rfl,
      .inr (by rintro _ ⟨⟩; rfl)⟩
  have bracket : Padded "abs(-)" "abs(-\n)" :=
    ⟨"abs(-".toList, ['\n'], [')'], rfl, rfl, List.forall_mem_singleton.2 rfl,
      .inr (by rintro _ ⟨⟩; rfl)⟩
  have spaced : Relaid "mul(@0,2)" " mul(@0\t,2)" := .tail (.single front) comma
  have broken : Relaid "abs(-)" "abs(-\n)" := .single bracket
  have tokens : Token.scan "mul(@0,2)".toList =
      .ok [.word "mul", .openRound, .slot 0, .comma, .int 2, .closeRound] := by decide +kernel
  have invalid : Token.scan "abs(-)".toList = .error (.invalidInteger "-") := by decide +kernel
  refine ⟨⟨spaced, ?_⟩, broken, ?_⟩
  · rw [parse_eq_of_relaid spaced, parse, tokens]
    rfl
  · rw [parse_eq_of_relaid broken, parse, invalid]
    rfl

end Formula

end FormulaFusion
