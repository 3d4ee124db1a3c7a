import FormLogic.Text.Quoted

/-!
# FormLogic.Condition.Basic

Conditions as trees, and their canonical text. A comparison holds a variable's
name against a text; `and` and `or` join any number of conditions, so only
parentheses nest. The canonical text puts parentheses around every connective.
-/

namespace FormLogic

open Text

/-- The ways a comparison holds an answer against a text. -/
inductive CompareOp where
  | icontains
  | noticontains
  | contains
  | equals
  | notequals
deriving DecidableEq, Repr

/-- The word for a comparison in canonical text. -/
def CompareOp.word : CompareOp → String
  | .icontains => "icontains"
  | .noticontains => "noticontains"
  | .contains => "contains"
  | .equals => "equals"
  | .notequals => "notequals"

/-- The comparison that a word in small letters names. -/
def CompareOp.ofWord? (word : String) : Option CompareOp :=
  match word with
  | "icontains" => some .icontains
  | "noticontains" => some .noticontains
  | "contains" => some .contains
  | "equals" => some .equals
  | "==" => some .equals
  | "notequals" => some .notequals
  | "!=" => some .notequals
  | _ => none

/-- A condition on the answers of a form. -/
inductive Condition where
  | and (operands : List Condition)
  | or (operands : List Condition)
  | compare (name : String) (op : CompareOp) (expected : String)
deriving Repr

namespace Condition

/-! ## Equality -/

mutual

/-- Whether two conditions are the same tree. -/
def decEq : (a b : Condition) → Decidable (a = b)
  | .and as, .and bs =>
    match decEqList as bs with
    | isTrue h => isTrue (h ▸ rfl)
    | isFalse h => isFalse fun e => h (Condition.and.inj e)
  | .or as, .or bs =>
    match decEqList as bs with
    | isTrue h => isTrue (h ▸ rfl)
    | isFalse h => isFalse fun e => h (Condition.or.inj e)
  | .compare v o x, .compare v' o' x' =>
    if h : v = v' ∧ o = o' ∧ x = x' then isTrue (by obtain ⟨rfl, rfl, rfl⟩ := h; rfl)
    else isFalse fun e => h (Condition.compare.inj e)
  | .and _, .or _ => isFalse nofun
  | .and _, .compare .. => isFalse nofun
  | .or _, .and _ => isFalse nofun
  | .or _, .compare .. => isFalse nofun
  | .compare .., .and _ => isFalse nofun
  | .compare .., .or _ => isFalse nofun

/-- Whether two lists hold the same conditions. -/
def decEqList : (as bs : List Condition) → Decidable (as = bs)
  | [], [] => isTrue rfl
  | [], _ :: _ => isFalse nofun
  | _ :: _, [] => isFalse nofun
  | a :: as, b :: bs =>
    match decEq a b, decEqList as bs with
    | isTrue h, isTrue hs => isTrue (by rw [h, hs])
    | isFalse h, _ => isFalse fun e => h (List.cons.inj e).1
    | _, isFalse hs => isFalse fun e => hs (List.cons.inj e).2

end

instance : DecidableEq Condition := decEq

/-! ## Building -/

/-- The conjunction of some operands; a single operand is itself. -/
def conjunction : List Condition → Condition
  | [c] => c
  | cs => .and cs

/-- The disjunction of some operands; a single operand is itself. -/
def disjunction : List Condition → Condition
  | [c] => c
  | cs => .or cs

/-! ## Views -/

mutual

/-- The names that a condition compares, in source order. -/
def variableNames : Condition → List String
  | .and cs => variableNamesOfList cs
  | .or cs => variableNamesOfList cs
  | .compare v _ _ => [v]

/-- The names that some conditions compare, in source order. -/
def variableNamesOfList : List Condition → List String
  | [] => []
  | c :: cs => variableNames c ++ variableNamesOfList cs

end

mutual

/-- The characters of the canonical text. -/
def render : Condition → List Char
  | .and cs => '(' :: renderList " and ".toList cs ++ [')']
  | .or cs => '(' :: renderList " or ".toList cs ++ [')']
  | .compare v op x =>
    '{' :: v.toList ++ '}' :: ' ' :: op.word.toList ++ ' ' :: quoted x.toList

/-- The texts of some conditions with a joint between neighbours. -/
def renderList (joint : List Char) : List Condition → List Char
  | [] => []
  | [c] => render c
  | c :: d :: cs => render c ++ joint ++ renderList joint (d :: cs)

end

/-- The canonical text of a condition. -/
def canonical (c : Condition) : String :=
  String.ofList c.render

end Condition

end FormLogic
