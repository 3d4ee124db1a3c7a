import FormLogic.Main
import FormLogic.Host
import FormLogic.Form.Printer
import FormLogic.CommandLine.Run
import FormLogic.Proofs.Condition.Grammar
import FormLogic.Proofs.Expr.Grammar
import FormLogic.Proofs.Text.Blank
import FormLogic.Proofs.Text.Quoted
import FormLogic.Proofs.Text.Literal
import FormLogic.Proofs.Lexeme
import FormLogic.Proofs.Joined
import FormLogic.Proofs.Condition.Canonical
import FormLogic.Proofs.Expr.Tree
import FormLogic.Proofs.Expr.Canonical
import FormLogic.Proofs.Cut
import FormLogic.Proofs.Lossless
import FormLogic.Proofs.Blanking
import FormLogic.Proofs.Text.Letters
import FormLogic.Proofs.Condition.Composition
import FormLogic.Proofs.Strict
import FormLogic.Proofs.Padding
import FormLogic.Proofs.Expr.Clean
import FormLogic.Proofs.Expr.Plain
import FormLogic.Proofs.Enclosed
import FormLogic.Proofs.Agreement
import FormLogic.Proofs.Form.Shape
import FormLogic.Proofs.Reload
import FormLogic.Proofs.Host
import FormLogic.Proofs.Diagnostics
import FormLogic.Proofs.Recursion
import FormLogic.Proofs.Form.RoundTrip
import FormLogic.Proofs.Symmetry
import FormLogic.Proofs.Placement
import FormLogic.Proofs.Warning
import FormLogic.Proofs.Widening
import FormLogic.Proofs.Expr.Sum
import FormLogic.Proofs.Updates
import FormLogic.Proofs.Form.Navigation
import FormLogic.Proofs.Expr.Names
import FormLogic.Proofs.Recasing
import FormLogic.Proofs.Expr.Path
import FormLogic.Proofs.Expr.Replacement
import FormLogic.Proofs.Text.Similar
import FormLogic.Proofs.CommandLine.Assignment
