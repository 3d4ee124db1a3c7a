import FormLogic.Condition.Basic
import FormLogic.State
import FormLogic.Value.Matching

/-!
# FormLogic.Condition.Eval

The truth of a condition over the answers of a form. A condition's names are
names of answers, never paths.
-/

namespace FormLogic

/-- Whether a comparison holds of an answer. -/
def CompareOp.holds (op : CompareOp) (actual : Value) (expected : String) : Bool :=
  match op with
  | .icontains => actual.containsIgnoringCase expected
  | .noticontains => !actual.containsIgnoringCase expected
  | .contains => actual.containsText expected
  | .equals => actual.equalsIgnoringCase expected
  | .notequals => !actual.equalsIgnoringCase expected

namespace Condition

mutual

/-- Whether a condition holds. -/
def eval (s : State) : Condition → Bool
  | .and cs => evalAll s cs
  | .or cs => evalAny s cs
  | .compare name op expected => op.holds (s.get name) expected

/-- Whether all of some conditions hold. -/
def evalAll (s : State) : List Condition → Bool
  | [] => true
  | c :: cs => eval s c && evalAll s cs

/-- Whether any of some conditions holds. -/
def evalAny (s : State) : List Condition → Bool
  | [] => false
  | c :: cs => eval s c || evalAny s cs

end

theorem evalAll_eq (s : State) (cs : List Condition) : evalAll s cs = cs.all (eval s) := by
  induction cs with
  | nil => simp [evalAll]
  | cons c cs ih => simp [evalAll, ih]

theorem evalAny_eq (s : State) (cs : List Condition) : evalAny s cs = cs.any (eval s) := by
  induction cs with
  | nil => simp [evalAny]
  | cons c cs ih => simp [evalAny, ih]

end Condition

end FormLogic
