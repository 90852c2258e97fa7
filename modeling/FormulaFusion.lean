import FormulaFusion.Pipeline
import FormulaFusion.Proofs.Calls
import FormulaFusion.Proofs.Fusion.Run
import FormulaFusion.Proofs.Fusion.Stability
import FormulaFusion.Proofs.Fusion.Sweep
import FormulaFusion.Proofs.Fusion.Validity
import FormulaFusion.Proofs.Fusion.Value
import FormulaFusion.Proofs.SyntaxTree
import FormulaFusion.Proofs.Graph.EvaluationOrder
import FormulaFusion.Proofs.Expansion.Walk
import FormulaFusion.Proofs.Renumbering
import FormulaFusion.Proofs.Fusion.Renumbering
import FormulaFusion.Proofs.Formula.Layout
import FormulaFusion.Proofs.Number.Nearest
import FormulaFusion.Proofs.Formula.DoubleText
import FormulaFusion.Proofs.Graph.Rewiring
import FormulaFusion.Proofs.Classification.Reachability
import FormulaFusion.Proofs.Pipeline
import FormulaFusion.Proofs.Formula.SlotNumbers
import FormulaFusion.Proofs.Frontier.Index
import FormulaFusion.Proofs.Kind
