import FormLogic.Proofs.Joined
import FormLogic.Proofs.Symmetry

/-!
# FormLogic.Proofs.Expr.Sum

Texts with ` + ` between them. A text that is read as an expression, that lacks no
closing mark and that closes its own parentheses is read there as it is alone
(`IsSummand`): its pieces end where the blank stands, its kinds are a whole
derivation, and its terms become terms of one run. The text that comes out is neither
plain nor one literal, so it is read as it stands, whatever quotes are at its ends
(`evaluateValue_sum`).
-/

namespace FormLogic

open Text

namespace Expr

open Grammar

/-- The text is read as the expression, no literal and no variable in it is left
open, and as many parentheses open as close. -/
structure IsSummand (text : String) (e : Expr) : Prop where
  read : tree? (parseExpr text false) = some e
  closed : ∀ a ∈ (lex text).anomalies, a.kind.isOpen = false
  balanced : Balanced .leftParen .rightParen (kindsIn text)

/-! ## One text -/

section
variable {text : String} {e : Expr} (h : IsSummand text e)
include h

theorem IsSummand.isOpen_of_mem_cut :
    ∀ x ∈ cut nextPiece text.toList, x.reading.isOpen = false := fun _ =>
  FormLogic.isOpen_of_mem_cut lawfulCut h.closed

/-- No closing parenthesis is missing behind the text. -/
theorem IsSummand.derived :
    Expression (kindsIn text) e ∧ Shallow .leftParen .rightParen 64 (kindsIn text) := by
  obtain ⟨as, hread⟩ := tree?_eq_some.mp h.read
  obtain ⟨⟨⟨n, hderived⟩, hshallow⟩, -⟩ := parseExpr_eq_ok.mp hread
  rw [← kindsIn_eq] at hderived hshallow
  obtain rfl := eq_zero_of_balanced (by simp) h.balanced (hderived.induct hereditary_balanced)
  rw [List.replicate_zero, List.append_nil] at hderived
  exact ⟨hderived, hshallow⟩

end

/-! ## Terms and their texts -/

theorem joinTexts_append (s : State) (es fs : List Expr) :
    joinTexts s (es ++ fs) = joinTexts s es ++ joinTexts s fs := by
  induction es with
  | nil => simp [joinTexts]
  | cons e es ih => rw [List.cons_append, joinTexts, joinTexts, ih, String.append_assoc]

/-- An expression is a run of terms, and its display text joins theirs. -/
theorem exists_run_of_expression {ks : List Kind} {e : Expr} (h : Expression ks e) :
    ∃ es, Run .plus Term ks es ∧ ∀ s, joinTexts s es = (e.eval s).displayText := by
  cases h with
  | single hterm => exact ⟨[e], .one hterm, fun s => by simp [joinTexts]⟩
  | run hrun hlen => exact ⟨_, hrun, fun s => by rw [Expr.eval, Value.displayText]⟩

/-! ## Several texts -/

/-- The texts with ` + ` between them. -/
def sumText (parts : List (String × Expr)) : String :=
  " + ".intercalate (parts.map (·.1))

theorem sumText_cons (p : String × Expr) {parts : List (String × Expr)} (hne : parts ≠ []) :
    (sumText (p :: parts)).toList =
      p.1.toList ++ (' ' :: '+' :: ' ' :: (sumText parts).toList) := by
  have hmap : parts.map (·.1) ≠ [] := by simpa using hne
  rw [sumText, List.map_cons, String.intercalate_cons_of_ne_nil hmap, String.toList_append,
    String.toList_append, List.append_assoc]
  rfl

/-- What stands between two summands, in pieces. -/
def plusPieces : List (Piece Kind) :=
  [charPiece ' ' .blank, charPiece '+' (.token .plus), charPiece ' ' .blank]

theorem isOpen_of_mem_plusPieces : ∀ x ∈ plusPieces, x.reading.isOpen = false := by decide

theorem kindsOf_plusPieces : kindsOf plusPieces = [.plus] := rfl

/-- A plus sign between blanks is cut off what stands behind it. -/
theorem cut_plus (rest : List Char) :
    cut nextPiece (' ' :: '+' :: ' ' :: rest) = plusPieces ++ cut nextPiece rest := by
  have hblank : ∀ t, cut nextPiece (' ' :: t) = charPiece ' ' .blank :: cut nextPiece t :=
    cut_cons nextPiece ' '
  have hplus : ∀ t, cut nextPiece ('+' :: t) = charPiece '+' (.token .plus) :: cut nextPiece t :=
    cut_cons nextPiece '+'
  rw [hblank, hplus, hblank]
  rfl

section
variable {parts : List (String × Expr)} (h : ∀ p ∈ parts, IsSummand p.1 p.2)
include h

/-- Summands are cut one by one, so that they lack no closing mark together and their
kinds have a plus between them. -/
theorem cut_sumText :
    (∀ x ∈ cut nextPiece (sumText parts).toList, x.reading.isOpen = false) ∧
      kindsIn (sumText parts) = [.plus].intercalate (parts.map fun p => kindsIn p.1) := by
  induction parts with
  | nil => exact ⟨by simp [sumText], rfl⟩
  | cons p parts ih =>
      obtain ⟨hp, hparts⟩ := List.forall_mem_cons.mp h
      by_cases hne : parts = []
      · subst hne
        exact ⟨by simpa [sumText] using hp.isOpen_of_mem_cut, by simp [sumText]⟩
      · obtain ⟨hclosed, hkinds⟩ := ih hparts
        have hcut : cut nextPiece (sumText (p :: parts)).toList =
            cut nextPiece p.1.toList ++ (plusPieces ++ cut nextPiece (sumText parts).toList) := by
          rw [sumText_cons p hne, cut_append_of_closed lawfulCut hp.isOpen_of_mem_cut, cut_plus]
          rintro _ ⟨⟩
          exact .inr (.inl rfl)
        constructor
        · intro x hx
          rw [hcut, List.mem_append, List.mem_append] at hx
          rcases hx with hx | hx | hx
          · exact hp.isOpen_of_mem_cut x hx
          · exact isOpen_of_mem_plusPieces x hx
          · exact hclosed x hx
        · rw [List.map_cons, List.intercalate_cons_of_ne_nil (by simpa using hne), ← hkinds,
            kindsIn_eq, kindsIn_eq, kindsIn_eq, hcut, kindsOf_append, kindsOf_append,
            kindsOf_plusPieces, List.append_assoc]

/-- The terms of the summands are one run. -/
theorem exists_run_sumText (hne : parts ≠ []) :
    ∃ es, Run .plus Term (kindsIn (sumText parts)) es ∧ parts.length ≤ es.length ∧
      ∀ s, joinTexts s es = String.join (parts.map fun p => (p.2.eval s).displayText) := by
  rw [(cut_sumText h).2]
  induction parts with
  | nil => contradiction
  | cons p parts ih =>
      obtain ⟨hp, hparts⟩ := List.forall_mem_cons.mp h
      obtain ⟨es, hrun, htexts⟩ := exists_run_of_expression hp.derived.1
      have hpos := hrun.length_pos
      by_cases hnil : parts = []
      · subst hnil
        exact ⟨es, by simpa using hrun, hpos, fun s => by simp [htexts]⟩
      · obtain ⟨fs, hruns, hlen, hjoin⟩ := ih hparts hnil
        refine ⟨es ++ fs, ?_, ?_, fun s => ?_⟩
        · rw [List.map_cons, List.intercalate_cons_of_ne_nil (by simpa using hnil),
            List.append_assoc]
          exact hrun.append hruns
        · rw [List.length_cons, List.length_append]
          omega
        · rw [joinTexts_append, htexts, hjoin, List.map_cons, String.join_cons]

/-- The summands together are read as the run of their terms. -/
theorem parseExpr_sumText (hlen : 2 ≤ parts.length) :
    ∃ es as, parseExpr (String.ofList (trim (sumText parts).toList)) false =
        .ok ⟨.concat es, as⟩ ∧
      ∀ s, joinTexts s es = String.join (parts.map fun p => (p.2.eval s).displayText) := by
  have hne : parts ≠ [] := by
    rintro rfl
    simp at hlen
  obtain ⟨hclosed, hkinds⟩ := cut_sumText h
  obtain ⟨es, hrun, hle, hjoin⟩ := exists_run_sumText h hne
  have hshallow : Shallow .leftParen .rightParen 64 (kindsIn (sumText parts)) := by
    rw [hkinds, shallow_intercalate (by simp) (by simp)]
    · exact List.forall_mem_map.mpr fun p hp => (h p hp).derived.2
    · exact List.forall_mem_map.mpr fun p hp => (h p hp).balanced
  have htrim := (kindsOf_cut_trim paddedCut hclosed).1
  refine ⟨es, _, parseExpr_eq_ok.mpr ⟨?_, rfl, by simp⟩, hjoin⟩
  rw [String.toList_ofList, htrim, ← kindsIn_eq]
  refine ⟨⟨0, ?_⟩, hshallow⟩
  rw [List.replicate_zero, List.append_nil]
  exact .run hrun (hlen.trans hle)

end

theorem plus_mem_trim_sumText {parts : List (String × Expr)} (hlen : 2 ≤ parts.length) :
    '+' ∈ trim (sumText parts).toList := by
  refine mem_trim ?_ (by decide)
  match parts, hlen with
  | p :: q :: parts, _ =>
      rw [sumText_cons p (List.cons_ne_nil q parts)]
      simp

/-- Two or more summands with ` + ` between them give the display texts of their
values, joined, whatever quotes the first one starts and the last one ends with. -/
theorem evaluateValue_sum {parts : List (String × Expr)} (hlen : 2 ≤ parts.length)
    (h : ∀ p ∈ parts, IsSummand p.1 p.2) (s : State) :
    evaluateValue (" + ".intercalate (parts.map (·.1))) s =
      .text (String.join (parts.map fun p => (p.2.eval s).displayText)) := by
  obtain ⟨es, as, hread, hjoin⟩ := parseExpr_sumText h hlen
  have hplain : isPlain (trim (sumText parts).toList) = false := by
    by_contra hplain
    have hmark : '+' ∈ marks := by decide
    exact not_mem_marks_of_isPlain (eq_true_of_ne_false hplain) _ (plus_mem_trim_sumText hlen) hmark
  have hvalue : ({} : Evaluator).parseValue (sumText parts) = .ok ⟨.concat es, as⟩ :=
    Evaluator.parseValue_of_parseExpr hread hplain (.inl fun ⟨x, hx⟩ => nomatch hx)
  have heval : ({} : Evaluator).value? (sumText parts) s = .ok (.text (joinTexts s es)) :=
    map_eq_ok.mpr ⟨_, hvalue, rfl⟩
  rw [← sumText, evaluateValue, Evaluator.value, heval, hjoin]

/-- A sum with something skipped in it, a group and a literal: the whole text starts
and ends with the same quote. -/
theorem evaluateValue_sum_quotes :
    (∀ p ∈ [("'a' + \x7bx\x7d ;", .concat [.text "a", .var (.ofText "x")]), ("('b')", .text "b"),
        (" 'c'", .text "c")], IsSummand p.1 p.2) ∧
      evaluateValue "'a' + \x7bx\x7d ; + ('b') +  'c'" (.ofPairs [("x", .list ["u", "v"])]) =
        .text "au,vbc" := by
  have hparts : ∀ p ∈ [("'a' + \x7bx\x7d ;", Expr.concat [.text "a", .var (.ofText "x")]),
      ("('b')", .text "b"), (" 'c'", .text "c")], IsSummand p.1 p.2 := by
    simp only [List.forall_mem_cons]
    exact ⟨⟨by decide +kernel, by decide +kernel, by decide +kernel⟩,
      ⟨by decide +kernel, by decide +kernel, by decide +kernel⟩,
      ⟨by decide +kernel, by decide +kernel, by decide +kernel⟩, List.forall_mem_nil _⟩
  have hsum := evaluateValue_sum (by decide) hparts (.ofPairs [("x", .list ["u", "v"])])
  have htext : " + ".intercalate ["'a' + \x7bx\x7d ;", "('b')", " 'c'"] =
      "'a' + \x7bx\x7d ; + ('b') +  'c'" := by decide +kernel
  have hvalues : String.join ["au,v", "b", "c"] = "au,vbc" := by decide +kernel
  exact ⟨hparts, htext ▸ hvalues ▸ hsum⟩

end Expr

end FormLogic
