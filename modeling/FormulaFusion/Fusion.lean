import FormulaFusion.Expansion
import FormulaFusion.Validation

/-!
# Fusion

`Fusion.run` turns every operator that can be written as a formula (`Operator.isCandidate`) into an
expression operator: its inputs become the frontier of the formula and its only parameter the text.
It always takes the last candidate that is left.  An `Outcome` keeps the graph as it stands when a
run ends, also when it ends in an error.
-/

namespace FormulaFusion

/-- A graph after a run, and the result of the run. -/
structure Outcome (α : Type) where
  graph : Graph
  result : Except Error α

/-- Whether fusion turns the operator into an expression: its kind can be written into a formula,
and it is no constant with a value that cannot. -/
def Operator.isCandidate (op : Operator) : Bool :=
  match op.kind with
  | .constant => (op.params.get? "value").all Parameter.isLiteral
  | kind => kind.isInlinable

/-- The last candidate in program order. -/
def Graph.lastCandidate? (g : Graph) : Option OperatorId :=
  (g.operators.zipIdx.reverse.find? fun entry => entry.1.isCandidate).map fun entry => ⟨entry.2⟩

/-- The settings of a fusion: the names of operands that count as constants, and the text before
the number in the names of new expressions. -/
structure Fusion where
  foldable : List String := []
  stem : String := "expr_"
  deriving DecidableEq, Repr

namespace Fusion

/-- The expression operator with a given number in place of `op`. -/
def expression (f : Fusion) (number : Nat) (text : String) (op : Operator) : Operator :=
  { op with
    kind := .expression
    name := f.stem ++ toString number
    params := .singleton "expr" (.literal (.string text))
    attrs := ∅ }

/-- The graph with one operator turned into the expression with the given number. -/
def fuseAt (f : Fusion) (g : Graph) (id : OperatorId) (number : Nat) : Except Error Graph :=
  (g.operator id).bind fun op =>
    (op.output 0).bind fun output =>
      (g.fusedFormula f.foldable output).bind fun fused =>
        (g.rewire id fused.inputs).bind fun g =>
          g.modifyOperator id (f.expression number fused.text)

/-- Fuses the last candidate as long as there is one, at most `limit` times; `done` counts the
expressions made before. -/
def runFrom (f : Fusion) : Nat → Nat → Graph → Outcome Nat
  | 0, done, g => ⟨g, .ok done⟩
  | limit + 1, done, g =>
    match g.lastCandidate? with
    | none => ⟨g, .ok done⟩
    | some id =>
      match f.fuseAt g id done with
      | .ok next => f.runFrom limit (done + 1) next
      | .error error => ⟨g, .error error⟩

/-- Fuses the graph; the result is the number of expressions made.  An expression is no candidate
any more, so there are no more steps than operators. -/
def run (f : Fusion) (g : Graph) : Outcome Nat := f.runFrom g.operators.length 0 g

end Fusion

/-- Validates a graph and fuses it if it is valid. -/
def Graph.fuse (g : Graph) (foldable : List String) : Outcome Nat :=
  match g.validate with
  | .ok _ => { foldable := foldable : Fusion }.run g
  | .error error => ⟨g, .error error⟩

end FormulaFusion
