import FormLogic.Expr.Basic
import FormLogic.State
import FormLogic.Value.Matching

/-!
# FormLogic.Expr.Eval

The answer that a value expression stands for. Joining and replacing work on
the display texts of answers; a variable alone keeps its answer as it is.
-/

namespace FormLogic

open Text

/-- Replace every occurrence of a text in another one. -/
def replaceText (value search replacement : String) : String :=
  String.ofList (replaceAll search.toList replacement.toList value.toList)

mutual

/-- The answer an expression stands for. -/
def Expr.eval (s : State) : Expr → Value
  | .text t => .text t
  | .bool b => .bool b
  | .var p => s.resolve p
  | .concat parts => .text (Expr.joinTexts s parts)
  | .ifElse t yes no => if Test.eval s t then Expr.eval s yes else Expr.eval s no
  | .replaceAll value search replacement =>
    .text (replaceText (Expr.eval s value).displayText (Expr.eval s search).displayText
      (Expr.eval s replacement).displayText)

/-- Whether a test succeeds. -/
def Test.eval (s : State) : Test → Bool
  | .literal b => b
  | .is left right => (Expr.eval s left).looselyEqual (Expr.eval s right)

/-- The display texts of some expressions, joined. -/
def Expr.joinTexts (s : State) : List Expr → String
  | [] => ""
  | e :: es => (Expr.eval s e).displayText ++ Expr.joinTexts s es

end

end FormLogic
