import FormLogic.Proofs.Condition.Canonical
import FormLogic.Proofs.Enclosed
import FormLogic.Proofs.Expr.Canonical

/-!
# FormLogic.Proofs.Agreement

The two languages agree on equality. A condition looks an answer up by its name
and an expression follows a path, which is the same for a path of one step
(`State.resolve_ofText`). A condition holds an answer against a text and an
expression against another answer, which is the same for an answer that is a text
(`Value.looselyEqual_text`). So it does not matter in which of the two languages
a form asks whether an answer is a text.
-/

namespace FormLogic

open Text

/-! ## Comparing -/

/-- Comparing with a text is comparing with the answer that is the text. -/
theorem Value.looselyEqual_text (v : Value) (x : String) :
    v.looselyEqual (.text x) = v.equalsIgnoringCase x := by
  have hsame : ∀ t : String, ([x].map (·.lowercase)).contains t.lowercase =
      (t.lowercase == x.lowercase) := by
    intro t
    rw [List.map_singleton, Bool.eq_iff_iff, List.contains_iff_mem, List.mem_singleton, beq_iff_eq]
  unfold looselyEqual equalsIgnoringCase
  rw [show (Value.text x).comparableTexts = [x] from rfl]
  simp only [hsame]

/-! ## Looking up -/

/-- A name without slashes and colons is a path of one step. -/
theorem Path.ofText_name {k : String} (htrim : trim k.toList = k.toList) (hslash : '/' ∉ k.toList)
    (hcolon : ':' ∉ k.toList) : Path.ofText k = ⟨k, [⟨k, none⟩]⟩ := by
  have hstep : PathSegment.ofText k.toList = ⟨k, none⟩ := by
    unfold PathSegment.ofText
    rw [htrim, splitAt_of_not_mem hcolon]
    simp [htrim]
  rw [Path.ofText, splitAt_of_not_mem hslash, List.map_singleton, hstep]

/-- A path of one step finds what looking its key up finds. -/
theorem State.resolve_ofText (s : State) {k : String} (hne : k ≠ "")
    (htrim : trim k.toList = k.toList) (hslash : '/' ∉ k.toList) (hcolon : ':' ∉ k.toList) :
    s.resolve (Path.ofText k) = s.get k := by
  have hkey : k.isEmpty = false := by simpa using hne
  rw [resolve, Path.ofText_name htrim hslash hcolon, follow, hkey]
  rfl

/-! ## Reading -/

/-- A text as it stands between single quotes. -/
def doubled (x : String) : String := String.ofList (doubleQuotes '\'' x.toList)

/-- The condition that an answer equals a text. -/
def equalsText (k x : String) : String :=
  "\x7b" ++ k ++ "\x7d equals '" ++ doubled x ++ "'"

/-- The expression that tests whether an answer is a text. -/
def isTest (k x : String) : String :=
  "if(\x7b" ++ k ++ "\x7d is '" ++ doubled x ++ "', true, false)"

variable {k x : String}

theorem canonical_equalsText :
    (Condition.compare k .equals x).canonical = equalsText k x := by
  rw [← String.toList_inj, Condition.canonical, String.toList_ofList]
  simp [Condition.render, quoted, equalsText, doubled, CompareOp.word]

theorem canonical_isTest :
    (Expr.ifElse (.is (.var (.ofText k)) (.text x)) (.bool true) (.bool false)).canonical =
      isTest k x := by
  have hvar : (Expr.var (.ofText k)).render = '{' :: k.toList ++ ['}'] :=
    Path.toList_text (.ofText k)
  have htext : (Expr.text x).render = quoted x.toList := rfl
  have hyes : (Expr.bool true).render = "true".toList := rfl
  have hno : (Expr.bool false).render = "false".toList := rfl
  rw [← String.toList_inj, Expr.canonical, String.toList_ofList, Expr.render_ifElse,
    Expr.render_test_is, hvar, htext, hyes, hno]
  simp [Expr.operandText, Expr.isConcat, quoted, isTest, doubled]

/-- The condition is read as a comparison. -/
theorem parseCondition_equalsText (hname : IsName k) (hx : Doublable '\'' x.toList)
    (strict : Bool) :
    parseCondition (equalsText k x) strict = .ok ⟨.compare k .equals x, []⟩ := by
  have hrestorable : Condition.Restorable (.compare k .equals x) := {
    joined := by simp [Condition.nodes]
    name := by
      intro _ _ _ hnode
      obtain ⟨rfl, -, -⟩ := Condition.compare.inj (List.mem_singleton.mp hnode)
      exact hname
    expected := by
      intro _ _ _ hnode
      obtain ⟨-, -, rfl⟩ := Condition.compare.inj (List.mem_singleton.mp hnode)
      exact hx
    depth := by simp [Condition.depth] }
  have hlexed := Condition.lex_canonical hrestorable.name hrestorable.expected
  rw [← canonical_equalsText]
  exact parseWith_eq_ok.mpr
    ⟨Condition.ofTokens_canonical hrestorable, hlexed.2.symm, fun _ => rfl⟩

/-- The expression is read as a test with two outcomes. -/
theorem parseExpr_isTest (hname : IsName k) (hx : Doublable '\'' x.toList) (strict : Bool) :
    parseExpr (isTest k x) strict =
      .ok ⟨.ifElse (.is (.var (.ofText k)) (.text x)) (.bool true) (.bool false), []⟩ := by
  have hrestorable : Expr.Restorable
      (.ifElse (.is (.var (.ofText k)) (.text x)) (.bool true) (.bool false)) := {
    joined := by simp [Expr.nodes, Test.sides]
    path := by simpa [Expr.nodes, Test.sides, Path.ofText] using hname
    text := by simpa [Expr.nodes, Test.sides] using hx
    sides := by
      intro l r yes no hnode
      obtain ⟨⟨rfl, rfl⟩, -, -⟩ : (l = .var (.ofText k) ∧ r = .text x) ∧ yes = .bool true ∧
          no = .bool false := by simpa [Expr.nodes, Test.sides] using hnode
      exact ⟨rfl, rfl, rfl⟩
    nesting := by simp [Expr.nesting, Test.nesting, Expr.operandNesting, Expr.isConcat] }
  have hlexed := Expr.lex_canonical (fun p hp => (hrestorable.path p hp).1) hrestorable.text
  rw [← canonical_isTest]
  exact parseWith_eq_ok.mpr ⟨Expr.ofTokens_canonical hrestorable, hlexed.2.symm, fun _ => rfl⟩

/-! ## Agreement -/

theorem evaluateCondition_equalsText (s : State) (hname : IsName k)
    (hx : Doublable '\'' x.toList) :
    evaluateCondition (equalsText k x) s = (s.get k).equalsIgnoringCase x := by
  unfold evaluateCondition Evaluator.condition Evaluator.condition?
  rw [parseCondition_equalsText hname hx]
  rfl

theorem evaluateValue_isTest (s : State) (hname : IsName k) (hx : Doublable '\'' x.toList) :
    evaluateValue (isTest k x) s =
      .bool ((s.resolve (.ofText k)).equalsIgnoringCase x) := by
  have hread := Evaluator.parseValue_of_clean (parseExpr_isTest hname hx false) (.inl nofun) {}
  have htest : (Expr.ifElse (.is (.var (.ofText k)) (.text x)) (.bool true) (.bool false)).eval s =
      .bool ((s.resolve (.ofText k)).equalsIgnoringCase x) := by
    rw [← Value.looselyEqual_text]
    show (if (s.resolve (.ofText k)).looselyEqual (.text x) then Value.bool true
      else Value.bool false) = _
    cases (s.resolve (.ofText k)).looselyEqual (.text x) with
    | true => rfl
    | false => rfl
  unfold evaluateValue Evaluator.value Evaluator.value?
  rw [hread]
  show (Expr.eval s _).topLevel = _
  rw [htest]
  rfl

/-- The condition that an answer equals a text and the test that it is the text
have the same outcome, whatever the answer. -/
theorem equality_agrees (s : State) (hne : k ≠ "") (hname : IsName k) (hslash : '/' ∉ k.toList)
    (hcolon : ':' ∉ k.toList) (hx : Doublable '\'' x.toList) :
    evaluateCondition (equalsText k x) s = (s.get k).equalsIgnoringCase x ∧
      evaluateValue (isTest k x) s = .bool (evaluateCondition (equalsText k x) s) := by
  have hcondition := evaluateCondition_equalsText s hname hx
  refine ⟨hcondition, ?_⟩
  rw [evaluateValue_isTest s hname hx, hcondition, s.resolve_ofText hne hname.1 hslash hcolon]

/-- One of several values, in another letter case and with a quote inside. -/
theorem equality_agrees_quote :
    equalsText "town" "King's Lynn" = "\x7btown\x7d equals 'King''s Lynn'" ∧
      isTest "town" "King's Lynn" = "if(\x7btown\x7d is 'King''s Lynn', true, false)" ∧
      evaluateCondition (equalsText "town" "King's Lynn")
        (.ofPairs [("town", .list ["Hull", "king's lynn"])]) = true ∧
      evaluateValue (isTest "town" "King's Lynn")
        (.ofPairs [("town", .list ["Hull", "king's lynn"])]) = .bool true := by
  have hname : IsName "town" := ⟨by decide, by decide⟩
  have htext : Doublable '\'' "King's Lynn".toList := by
    unfold Doublable
    decide
  obtain ⟨hcondition, hvalue⟩ :=
    equality_agrees (.ofPairs [("town", .list ["Hull", "king's lynn"])]) (by decide) hname
      (by decide) (by decide) htext
  have htrue := hcondition.trans (by decide +kernel : _ = true)
  refine ⟨by decide +kernel, by decide +kernel, htrue, ?_⟩
  rw [hvalue, htrue]

end FormLogic
