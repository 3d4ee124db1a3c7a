import FormLogic.Proofs.Expr.Tree
import Mathlib.Algebra.GroupWithZero.Nat

/-!
# FormLogic.Proofs.Expr.Sides

The sides of tests that need parentheses where the canonical text writes none.
A boolean in front of a test is the whole test, and a call of `if` is no operand,
so a derivation opens one more parenthesis for each of them than the canonical
text has (`opened_le`).
-/

namespace FormLogic

namespace Expr

/-- Whether an expression is a boolean. -/
def isBool : Expr → Bool
  | .bool _ => true
  | _ => false

/-- Whether an expression is a call of `if`. -/
def isIf : Expr → Bool
  | .ifElse .. => true
  | _ => false

end Expr

/-- How many sides of a test cannot stand there without parentheses. -/
def Test.misplaced : Test → Nat
  | .literal _ => 0
  | .is l r => l.isBool.toNat + l.isIf.toNat + r.isIf.toNat

namespace Expr

open Grammar

/-- How many sides of a node's own test cannot stand there without parentheses. -/
def misplaced : Expr → Nat
  | .ifElse t _ _ => t.misplaced
  | _ => 0

/-- The opening parentheses among some kinds, and one more for every misplaced
side among some nodes. -/
def opened (ks : List Kind) (nodes : List Expr) : Nat :=
  ks.count .leftParen + (nodes.map misplaced).sum

theorem opened_append (ks ls : List Kind) (ns ms : List Expr) :
    opened (ks ++ ls) (ns ++ ms) = opened ks ns + opened ls ms := by
  unfold opened
  rw [List.count_append, List.map_append, List.sum_append]
  omega

theorem count_call (name : String) (ks ls ms : List Kind) :
    (call name ks ls ms).count .leftParen =
      ks.count .leftParen + ls.count .leftParen + ms.count .leftParen + 1 := by
  simp [call]
  omega

theorem opened_call (name : String) (ks ls ms : List Kind) (n : Expr) (ns ps qs : List Expr) :
    opened (call name ks ls ms) (n :: (ns ++ ps ++ qs)) =
      opened ks ns + opened ls ps + opened ms qs + n.misplaced + 1 := by
  unfold opened
  rw [count_call, List.map_cons, List.map_append, List.map_append, List.sum_cons, List.sum_append,
    List.sum_append]
  omega

theorem opened_kindsInside (e : Expr) :
    opened e.kindsInside e.nodes = opened e.kinds e.nodes + e.isConcat.toNat := by
  unfold opened kindsInside operandKinds
  cases e.isConcat
  · simp
  · simp
    omega

/-- Parts that open no more than their phrases do so where they are joined. -/
theorem opened_joined_le {ks : List Kind} {es : List Expr}
    (h : Run .plus (fun ks e => opened e.kindsInside e.nodes ≤ ks.count .leftParen) ks es) :
    opened ([Kind.plus].intercalate (es.map kindsInside)) (es.flatMap nodes) ≤
      ks.count .leftParen := by
  induction h with
  | one he => simpa using he
  | @cons ks ls e es he hes ih =>
      have hne : es.map kindsInside ≠ [] := by cases hes <;> simp
      have hplus : opened ([.plus] ++ [Kind.plus].intercalate (es.map kindsInside))
          ([] ++ es.flatMap nodes) ≤ ls.count .leftParen := by
        rw [opened_append]
        simpa [opened] using ih
      rw [List.map_cons, List.intercalate_cons_of_ne_nil hne, List.append_assoc, List.flatMap_cons,
        opened_append, List.count_append, List.count_cons_of_ne (by simp)]
      exact Nat.add_le_add he hplus

/-- An operand opens a parenthesis of its own where the expression could not
stand without. -/
theorem Grammar.Operand.opened_le {ks : List Kind} {e : Expr} (h : Operand ks e)
    (hinside : opened e.kindsInside e.nodes ≤ ks.count .leftParen)
    (hgroup : ks.head? = some .leftParen → opened e.kinds e.nodes + 1 ≤ ks.count .leftParen) :
    opened e.kindsInside e.nodes + e.isIf.toNat ≤ ks.count .leftParen ∧
      ((∀ b, ks.head? ≠ some (.bool b)) →
        opened e.kindsInside e.nodes + e.isBool.toNat + e.isIf.toNat ≤ ks.count .leftParen) := by
  cases h with
  | simple h =>
      cases h with
      | text | var => exact ⟨hinside, fun _ => hinside⟩
      | bool => exact ⟨hinside, fun hb => absurd rfl (hb _)⟩
      | group h =>
          have hone : e.isConcat.toNat + e.isBool.toNat + e.isIf.toNat ≤ 1 := by
            cases e <;> simp [isConcat, isBool, isIf]
          have hgroup := hgroup rfl
          rw [opened_kindsInside]
          omega
  | replaceCall h =>
      cases h with
      | call => exact ⟨hinside, fun _ => hinside⟩

/-- A derivation opens the parentheses that its expression is written with, and
one more for every misplaced side. -/
theorem Grammar.hereditary_opened :
    Hereditary
      (fun ks e => opened e.kindsInside e.nodes ≤ ks.count .leftParen ∧
        (ks.head? = some .leftParen → opened e.kinds e.nodes + 1 ≤ ks.count .leftParen))
      (fun ks e => opened e.kinds e.nodes ≤ ks.count .leftParen)
      (fun ks t => opened t.kinds t.nodes + t.misplaced ≤ ks.count .leftParen) where
  text s := by simp [opened, kindsInside, operandKinds, isConcat, kinds, nodes, misplaced]
  bool b := by simp [opened, kindsInside, operandKinds, isConcat, kinds, nodes, misplaced]
  var raw := by simp [opened, kindsInside, operandKinds, isConcat, kinds, nodes, misplaced]
  group ks e h := by
    have hconcat := e.isConcat.toNat_le
    rw [opened_kindsInside]
    simp
    omega
  ifCall name ks ls ms t yes no ht hyes hno := by
    have hconcat : (ifElse t yes no).isConcat.toNat = 0 := rfl
    rw [opened_kindsInside, kinds, nodes, opened_call, count_call, misplaced, hconcat]
    exact ⟨by omega, by simp [call]⟩
  replaceCall name ks ls ms v s r hv hs hr := by
    have hconcat : (replaceAll v s r).isConcat.toNat = 0 := rfl
    have hmisplaced : (replaceAll v s r).misplaced = 0 := rfl
    rw [opened_kindsInside, kinds, nodes, opened_call, count_call, hmisplaced, hconcat]
    exact ⟨by omega, by simp [call]⟩
  single ks e h := by
    have hinside := h.1
    rw [opened_kindsInside] at hinside
    omega
  run ks es hrun _ := by
    have hjoined := opened_joined_le (hrun.mono fun _ _ h => h.1)
    rw [kinds, kindsOfParts_eq, nodes, nodesOfParts_eq]
    simpa [opened, misplaced] using hjoined
  literal b := by simp [opened, Test.kinds, Test.nodes, Test.misplaced]
  is ks ls l r hl hhead hr hlo hro := by
    have hleft := (hl.opened_le hlo.1 hlo.2).2 hhead
    have hright := (hr.opened_le hro.1 hro.2).1
    have hopened := opened_append l.kindsInside (.is :: r.kindsInside) l.nodes r.nodes
    have his : opened (.is :: r.kindsInside) r.nodes = opened r.kindsInside r.nodes := by
      simp [opened]
    rw [Test.kinds_is, Test.nodes, hopened, his, Test.misplaced, List.count_append,
      List.count_cons_of_ne (by simp)]
    omega

end Expr

end FormLogic
