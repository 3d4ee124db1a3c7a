import FormLogic.Expr.Path
import FormLogic.Text.Quoted

/-!
# FormLogic.Expr.Basic

Value expressions as trees, and their canonical text. A run of `+` is one flat
node; the canonical text puts parentheses around it where it is an operand.
-/

namespace FormLogic

open Text

mutual

/-- An expression for a field's value. -/
inductive Expr where
  | text (s : String)
  | bool (b : Bool)
  | var (path : Path)
  /-- `a + b + c` -/
  | concat (parts : List Expr)
  /-- `if(test, then, otherwise)` -/
  | ifElse (test : Test) (yes no : Expr)
  /-- `replaceAll(value, search, replacement)` -/
  | replaceAll (value search replacement : Expr)

/-- What an `if` asks. -/
inductive Test where
  | literal (b : Bool)
  /-- Whether two values have a text in common, in any letter case. -/
  | is (left right : Expr)

end

deriving instance Repr for Expr, Test

/-! ## Equality -/

mutual

/-- Whether two expressions are the same tree. -/
def Expr.decEq : (a b : Expr) → Decidable (a = b)
  | .text s, .text s' => decidable_of_iff (s = s') (by simp)
  | .bool b, .bool b' => decidable_of_iff (b = b') (by simp)
  | .var p, .var p' => decidable_of_iff (p = p') (by simp)
  | .concat ps, .concat ps' =>
    match Expr.decEqList ps ps' with
    | isTrue h => isTrue (by rw [h])
    | isFalse h => isFalse fun e => h (Expr.concat.inj e)
  | .ifElse t a b, .ifElse t' a' b' =>
    match Test.decEq t t', Expr.decEq a a', Expr.decEq b b' with
    | isTrue h, isTrue ha, isTrue hb => isTrue (by rw [h, ha, hb])
    | isFalse h, _, _ => isFalse fun e => h (Expr.ifElse.inj e).1
    | _, isFalse h, _ => isFalse fun e => h (Expr.ifElse.inj e).2.1
    | _, _, isFalse h => isFalse fun e => h (Expr.ifElse.inj e).2.2
  | .replaceAll v s r, .replaceAll v' s' r' =>
    match Expr.decEq v v', Expr.decEq s s', Expr.decEq r r' with
    | isTrue hv, isTrue hs, isTrue hr => isTrue (by rw [hv, hs, hr])
    | isFalse h, _, _ => isFalse fun e => h (Expr.replaceAll.inj e).1
    | _, isFalse h, _ => isFalse fun e => h (Expr.replaceAll.inj e).2.1
    | _, _, isFalse h => isFalse fun e => h (Expr.replaceAll.inj e).2.2
  | .text _, .bool _ | .text _, .var _ | .text _, .concat _
  | .text _, .ifElse .. | .text _, .replaceAll .. => isFalse nofun
  | .bool _, .text _ | .bool _, .var _ | .bool _, .concat _
  | .bool _, .ifElse .. | .bool _, .replaceAll .. => isFalse nofun
  | .var _, .text _ | .var _, .bool _ | .var _, .concat _
  | .var _, .ifElse .. | .var _, .replaceAll .. => isFalse nofun
  | .concat _, .text _ | .concat _, .bool _ | .concat _, .var _
  | .concat _, .ifElse .. | .concat _, .replaceAll .. => isFalse nofun
  | .ifElse .., .text _ | .ifElse .., .bool _ | .ifElse .., .var _
  | .ifElse .., .concat _ | .ifElse .., .replaceAll .. => isFalse nofun
  | .replaceAll .., .text _ | .replaceAll .., .bool _ | .replaceAll .., .var _
  | .replaceAll .., .concat _ | .replaceAll .., .ifElse .. => isFalse nofun

/-- Whether two tests are the same tree. -/
def Test.decEq : (a b : Test) → Decidable (a = b)
  | .literal b, .literal b' => decidable_of_iff (b = b') (by simp)
  | .is l r, .is l' r' =>
    match Expr.decEq l l', Expr.decEq r r' with
    | isTrue hl, isTrue hr => isTrue (by rw [hl, hr])
    | isFalse h, _ => isFalse fun e => h (Test.is.inj e).1
    | _, isFalse h => isFalse fun e => h (Test.is.inj e).2
  | .literal _, .is .. => isFalse nofun
  | .is .., .literal _ => isFalse nofun

/-- Whether two lists hold the same expressions. -/
def Expr.decEqList : (as bs : List Expr) → Decidable (as = bs)
  | [], [] => isTrue rfl
  | [], _ :: _ => isFalse nofun
  | _ :: _, [] => isFalse nofun
  | a :: as, b :: bs =>
    match Expr.decEq a b, Expr.decEqList as bs with
    | isTrue h, isTrue hs => isTrue (by rw [h, hs])
    | isFalse h, _ => isFalse fun e => h (List.cons.inj e).1
    | _, isFalse hs => isFalse fun e => hs (List.cons.inj e).2

end

instance : DecidableEq Expr := Expr.decEq

instance : DecidableEq Test := Test.decEq

/-! ## Building -/

/-- The expression that joins some parts; a single part is itself. -/
def Expr.join : List Expr → Expr
  | [e] => e
  | es => .concat es

/-! ## Canonical text -/

/-- Whether an expression joins parts, so that it needs parentheses as an
operand. -/
def Expr.isConcat : Expr → Bool
  | .concat _ => true
  | _ => false

/-- The text of an operand, given the text of the expression alone. -/
def Expr.operandText (e : Expr) (alone : List Char) : List Char :=
  if e.isConcat then '(' :: alone ++ [')'] else alone

mutual

/-- The characters of the canonical text. -/
def Expr.render : Expr → List Char
  | .text s => quoted s.toList
  | .bool b => (toString b).toList
  | .var p => p.text.toList
  | .concat parts => Expr.renderParts parts
  | .ifElse t a b =>
    "if(".toList ++ t.render ++ ", ".toList ++ a.render ++ ", ".toList ++ b.render ++ [')']
  | .replaceAll v s r =>
    "replaceAll(".toList ++ v.render ++ ", ".toList ++ s.render ++ ", ".toList
      ++ r.render ++ [')']

/-- The text of a test. -/
def Test.render : Test → List Char
  | .literal b => (toString b).toList
  | .is l r => l.operandText l.render ++ " is ".toList ++ r.operandText r.render

/-- The texts of some parts with a plus between neighbours. -/
def Expr.renderParts : List Expr → List Char
  | [] => []
  | [e] => e.operandText e.render
  | e :: f :: es => e.operandText e.render ++ " + ".toList ++ Expr.renderParts (f :: es)

end

/-- The canonical text of an expression. -/
def Expr.canonical (e : Expr) : String :=
  String.ofList e.render

end FormLogic
