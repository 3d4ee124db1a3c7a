import FormLogic.Evaluator
import FormLogic.Proofs.Expr.Tree

/-!
# FormLogic.Proofs.Expr.Congruence

What a value expression sees of the answers. A path that it names may find an object,
but of an object nothing shows in a text or in a comparison. So the answer that an
expression stands for depends on what its paths find at the top (`Expr.eval_congr`),
and so does the answer of a text, read in either mode (`Evaluator.value_congr`).
-/

namespace FormLogic

theorem Value.looselyEqual_congr {v v' w w' : Value} (hv : v.topLevel = v'.topLevel)
    (hw : w.topLevel = w'.topLevel) : v.looselyEqual w = v'.looselyEqual w' := by
  rw [looselyEqual, looselyEqual, comparableTexts_congr hv, comparableTexts_congr hw]

variable {s s' : State}

theorem Expr.joinTexts_congr {es : List Expr}
    (h : ∀ e ∈ es, (e.eval s').topLevel = (e.eval s).topLevel) :
    joinTexts s' es = joinTexts s es := by
  induction es with
  | nil => rfl
  | cons e es ih =>
      obtain ⟨he, hes⟩ := List.forall_mem_cons.mp h
      rw [joinTexts, joinTexts, Value.displayText_congr he, ih hes]

theorem Test.eval_congr {t : Test}
    (h : ∀ e ∈ t.sides, (e.eval s').topLevel = (e.eval s).topLevel) : t.eval s' = t.eval s := by
  cases t with
  | literal b => rw [Test.eval, Test.eval]
  | is l r =>
      have hl := h l (by simp [Test.sides])
      have hr := h r (by simp [Test.sides])
      rw [Test.eval, Test.eval, Value.looselyEqual_congr hl hr]

/-- An expression depends on what its paths find, and of that on what it is at the
top. -/
theorem Expr.eval_congr {e : Expr}
    (h : ∀ p, .var p ∈ e.nodes → (s'.resolve p).topLevel = (s.resolve p).topLevel) :
    (e.eval s').topLevel = (e.eval s).topLevel := by
  induction e with
  | text | bool => rw [Expr.eval, Expr.eval]
  | var p => exact h p (by simp [nodes])
  | concat es ih =>
      have hes : ∀ e ∈ es, (e.eval s').topLevel = (e.eval s).topLevel := fun e he =>
        ih e he fun p hp => h p (by simpa [nodes] using ⟨e, he, hp⟩)
      rw [Expr.eval, Expr.eval, joinTexts_congr hes]
  | ifElse t yes no ht hyes hno =>
      have htest : t.eval s' = t.eval s := Test.eval_congr fun e he =>
        ht e he fun p hp => h p (by simpa [nodes] using .inl ⟨e, he, hp⟩)
      rw [Expr.eval, Expr.eval, htest]
      cases t.eval s with
      | true => exact hyes fun p hp => h p (by simp [nodes, hp])
      | false => exact hno fun p hp => h p (by simp [nodes, hp])
  | replaceAll value search replacement hvalue hsearch hreplacement =>
      rw [Expr.eval, Expr.eval,
        Value.displayText_congr (hvalue fun p hp => h p (by simp [nodes, hp])),
        Value.displayText_congr (hsearch fun p hp => h p (by simp [nodes, hp])),
        Value.displayText_congr (hreplacement fun p hp => h p (by simp [nodes, hp]))]

namespace Evaluator

variable {ev : Evaluator} {expr : String}

theorem value?_congr
    (h : ∀ parsed, ev.parseValue expr = .ok parsed → ∀ p, .var p ∈ parsed.tree.nodes →
      (s'.resolve p).topLevel = (s.resolve p).topLevel) :
    ev.value? expr s' = ev.value? expr s := by
  rw [value?, value?]
  cases hread : ev.parseValue expr with
  | error => rfl
  | ok parsed =>
      have hsame := Expr.eval_congr (h parsed hread)
      exact congrArg Except.ok hsame

/-- A text that is no expression stands for itself, and one that is depends on what
its paths find. -/
theorem value_congr
    (h : ∀ parsed, ev.parseValue expr = .ok parsed → ∀ p, .var p ∈ parsed.tree.nodes →
      (s'.resolve p).topLevel = (s.resolve p).topLevel) :
    ev.value expr s' = ev.value expr s := by
  rw [value, value, value?_congr h]

end Evaluator

end FormLogic
