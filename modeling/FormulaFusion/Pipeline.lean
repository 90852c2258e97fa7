import FormulaFusion.Fusion

/-!
# Pipelines of passes

A `Pass` transforms a graph, possibly with effects in a monad `m`, and says whether it changed it.
Passes run by stages, all validation before all fusion.  `Pipeline.run` first brings the passes into
this order, keeping the order of registration within a stage, and then runs them one after the other
until one fails.
-/

namespace FormulaFusion

/-- The stages of a pipeline. -/
inductive Stage where
  | validation
  | fusion
  deriving DecidableEq, Repr

namespace Stage

/-- The stages in the order in which they run. -/
def all : List Stage := [validation, fusion]

/-- Whether one stage runs before another. -/
def before : Stage → Stage → Bool
  | validation, fusion => true
  | _, _ => false

end Stage

/-- A transformation of graphs that belongs to a stage; its result says whether it changed the
graph. -/
structure Pass (m : Type → Type) where
  name : String
  stage : Stage
  run : Graph → m (Outcome Bool)

namespace Pass

variable {m : Type → Type} [Monad m]

/-- The pass that accepts valid graphs and leaves them as they are. -/
def validation : Pass m where
  name := "validate_graph"
  stage := .validation
  run g := pure ⟨g, g.validate.map fun _ => false⟩

/-- The pass that fuses a graph. -/
def fusion (f : Fusion) : Pass m where
  name := "fuse_expression"
  stage := .fusion
  run g :=
    let outcome := f.run g
    pure ⟨outcome.graph, outcome.result.map fun count => decide (0 < count)⟩

end Pass

/-- Passes in the order in which they are kept. -/
structure Pipeline (m : Type → Type) where
  passes : List (Pass m)

namespace Pipeline

variable {m : Type → Type}

/-- The pipeline without passes. -/
def empty : Pipeline m := ⟨[]⟩

/-- The pipeline with one more pass at the end. -/
def add (p : Pipeline m) (pass : Pass m) : Pipeline m := ⟨p.passes ++ [pass]⟩

/-- Validation followed by fusion. -/
def standard [Monad m] (foldable : List String) : Pipeline m :=
  ⟨[.validation, .fusion { foldable := foldable }]⟩

/-- The number of passes. -/
def size (p : Pipeline m) : Nat := p.passes.length

/-- Whether there are no passes. -/
def isEmpty (p : Pipeline m) : Bool := p.passes.isEmpty

/-- The passes brought into the order of their stages, otherwise in the order in which they stand.
-/
def arranged (p : Pipeline m) : Pipeline m :=
  ⟨Stage.all.flatMap fun stage => p.passes.filter fun pass => pass.stage = stage⟩

/-- Runs passes one after the other on the graph left by the one before, until one fails; `changed`
tells whether an earlier pass changed the graph. -/
def runAll [Monad m] : List (Pass m) → Bool → Graph → m (Outcome Bool)
  | [], changed, g => pure ⟨g, .ok changed⟩
  | pass :: rest, changed, g => do
    let outcome ← pass.run g
    match outcome.result with
    | .ok more => runAll rest (changed || more) outcome.graph
    | .error error => pure ⟨outcome.graph, .error error⟩

/-- Arranges the passes and runs them; gives the arranged pipeline with the outcome. -/
def run [Monad m] (p : Pipeline m) (g : Graph) : m (Pipeline m × Outcome Bool) := do
  let outcome ← runAll p.arranged.passes false g
  return (p.arranged, outcome)

end Pipeline

end FormulaFusion
