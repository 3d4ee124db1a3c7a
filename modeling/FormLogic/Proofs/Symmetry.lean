import FormLogic.Proofs.Enclosed
import FormLogic.Proofs.Expr.Delimited

/-!
# FormLogic.Proofs.Symmetry

The sides of `is`. Whether two answers have a text in common does not depend on
their order (`Value.looselyEqual_comm`), and an `if` that is put together from the
texts of its parts is read as the `if` of what the parts are read as
(`parseExpr_ifIs`). So its sides can be swapped, but for one thing: a boolean in
front of a test is the whole test (`Grammar.IfTest.eq_bool`), so a test that goes on
behind it cannot be read.
-/

namespace FormLogic

open Text

/-! ## Comparing -/

/-- Whether two answers have a text in common does not depend on their order. -/
theorem Value.looselyEqual_comm (v w : Value) : v.looselyEqual w = w.looselyEqual v := by
  have hcommon : ∀ v w : Value, v.looselyEqual w = true ↔
      ∃ x ∈ v.comparableTexts, ∃ y ∈ w.comparableTexts, y.lowercase = x.lowercase := by
    intro v w
    simp only [looselyEqual, List.any_eq_true, List.contains_iff_mem, List.mem_map]
  rw [Bool.eq_iff_iff, hcommon, hcommon]
  constructor
  · rintro ⟨x, hx, y, hy, hxy⟩
    exact ⟨y, hy, x, hx, hxy.symm⟩
  · rintro ⟨y, hy, x, hx, hxy⟩
    exact ⟨x, hx, y, hy, hxy.symm⟩

/-! ## Texts that cannot be read -/

/-- A text that is in no quotes, is not plain and cannot be read stands for itself. -/
theorem Evaluator.value_of_error {ev : Evaluator} {expr : String} {fault : SourceFault}
    (htrim : trim expr.toList = expr.toList) (hquote : ¬ Enclosed expr.toList)
    (hplain : isPlain expr.toList = false) (hread : parseExpr expr ev.strict = .error fault)
    (s : State) : ev.value expr s = .text expr := by
  have hnone : enclosed? (trim expr.toList) = none := by
    rw [htrim]
    exact enclosed?_eq_none_iff.mpr hquote
  have hparse : ev.parseValue expr = .error fault := by
    rw [parseValue_of_not_enclosed hnone, htrim, parseUnquoted, hplain, if_neg (by simp),
      String.ofList_toList, hread]
  have hvalue : ev.value? expr s = .error fault := map_eq_error.mpr hparse
  rw [value, hvalue]
  show Value.text (passedThrough expr) = _
  rw [passedThrough, hnone, Option.getD_none, htrim, String.ofList_toList]

namespace Expr

open Grammar

/-! ## Texts of phrases -/

/-- The kinds of the tokens of a text. -/
def kindsIn (text : String) : List Kind := kindsAhead (lex text).tokens

theorem kindsIn_eq (text : String) : kindsIn text = kindsOf (cut nextPiece text.toList) :=
  kindsAhead_lex text

theorem lex_clean_iff {text : String} :
    (lex text).anomalies = [] ↔ faultsOf (cut nextPiece text.toList) = [] :=
  anomaliesOf_eq_nil_iff

/-- A text in which nothing is out of place is read by its kinds. -/
theorem parseExpr_of_kindsIn {text : String} {e : Expr} (hclean : (lex text).anomalies = [])
    (haccepts : Accepts (kindsIn text) e) (strict : Bool) :
    parseExpr text strict = .ok ⟨e, []⟩ := by
  rw [kindsIn_eq] at haccepts
  exact parseExpr_clean.mpr ⟨haccepts, lex_clean_iff.mp hclean⟩

/-- Nothing in the text is out of place, the grammar derives its kinds as a phrase
`P`, and no more parentheses are open in it than may be open inside one more pair. -/
structure IsPhrase (P : List Kind → Expr → Prop) (text : String) (e : Expr) : Prop where
  clean : (lex text).anomalies = []
  derived : P (kindsIn text) e
  shallow : Shallow .leftParen .rightParen 63 (kindsIn text)

/-- The text is a boolean and nothing else. -/
def IsBoolean (text : String) : Prop := ∃ b, kindsIn text = [.bool b]

theorem Grammar.Simple.ne_paren {k : Kind} {e : Expr} (h : Simple [k] e) :
    k ≠ .leftParen ∧ k ≠ .rightParen := by
  generalize hks : [k] = ks at h
  cases h with
  | text | bool | var =>
      obtain rfl := (List.cons.inj hks).1
      exact ⟨nofun, nofun⟩
  | group => simp at hks

/-- A literal, a boolean or a variable is an operand and a branch as well. -/
theorem isPhrase_of_simple {text : String} {k : Kind} {e : Expr}
    (hlex : kindsIn text = [k] ∧ (lex text).anomalies = []) (h : Simple [k] e) :
    IsPhrase Operand text e ∧ IsPhrase Expression text e := by
  obtain ⟨hkind, hclean⟩ := hlex
  have hshallow : Shallow .leftParen .rightParen 63 (kindsIn text) := by
    rw [hkind]
    exact shallow_singleton h.ne_paren.1 h.ne_paren.2
  exact ⟨⟨hclean, hkind ▸ .simple h, hshallow⟩, ⟨hclean, hkind ▸ .single (.simple h), hshallow⟩⟩

/-- The call of `if` that compares two operands. -/
def ifIs (left right yes no : String) : String :=
  "if(" ++ left ++ " is " ++ right ++ ", " ++ yes ++ ", " ++ no ++ ")"

theorem toList_ifIs (left right yes no : String) :
    (ifIs left right yes no).toList =
      ['i', 'f'] ++ (['('] ++ (left.toList ++ ([' ', 'i', 's'] ++ [' '] ++ (right.toList ++
        ([','] ++ [' '] ++ (yes.toList ++ ([','] ++ [' '] ++ (no.toList ++ [')'])))))))) := by
  show ("if(" ++ left ++ " is " ++ right ++ ", " ++ yes ++ ", " ++ no ++ ")").toList = _
  simp only [String.toList_append, List.append_assoc]
  rfl

variable {L R A B : String} {l r a b : Expr}

theorem head?_ifIs : (ifIs L R A B).toList.head? = some 'i' := by
  rw [toList_ifIs]
  rfl

theorem getLast?_ifIs : (ifIs L R A B).toList.getLast? = some ')' := by
  rw [toList_ifIs]
  simp only [List.getLast?_append]
  rfl

theorem trim_ifIs : trim (ifIs L R A B).toList = (ifIs L R A B).toList := by
  refine trim_eq_self ?_ ?_
  · rw [head?_ifIs]
    rintro _ ⟨⟩
    rfl
  · rw [getLast?_ifIs]
    rintro _ ⟨⟩
    rfl

/-- A text without anything out of place spells its kinds in front of a
delimiter. -/
theorem spells_kindsIn {text : String} (hclean : (lex text).anomalies = []) {rest : List Char}
    (hrest : Delimited rest) : Spells nextPiece text.toList rest (kindsIn text) := by
  rw [kindsIn_eq]
  exact spells_of_clean (lex_clean_iff.mp hclean) hrest

/-- The call is lexed as the kinds of its parts, with nothing out of place. -/
theorem lex_ifIs (hl : (lex L).anomalies = []) (hr : (lex R).anomalies = [])
    (ha : (lex A).anomalies = []) (hb : (lex B).anomalies = []) :
    kindsIn (ifIs L R A B) =
        call "if" (kindsIn L ++ .is :: kindsIn R) (kindsIn A) (kindsIn B) ∧
      (lex (ifIs L R A B)).anomalies = [] := by
  have hname : ∀ rest, Delimited rest → Spells nextPiece ['i', 'f'] rest [.ident "if"] :=
    fun _ => @spells_word 'i' ['f'] _ _ (fun _ => rfl) (by decide) rfl
  have hopen : ∀ rest, Spells nextPiece ['('] rest [.leftParen] := fun _ => spells_token rfl
  have his : ∀ rest, Spells nextPiece ([' ', 'i', 's'] ++ [' ']) rest [.is] := fun _ =>
    spells_padded (fun _ => rfl) rfl
  have hcomma : ∀ rest, Spells nextPiece ([','] ++ [' ']) rest [.comma] := fun _ =>
    (spells_token rfl).append (spells_blank rfl)
  have hclose : Spells nextPiece [')'] [] [.rightParen] := spells_token rfl
  -- from the last part to the first, each part stands in front of a delimiter
  have hno := (spells_kindsIn hb (by simp [Delimited])).append hclose
  have hyes := (spells_kindsIn ha (by simp [Delimited])).append ((hcomma _).append hno)
  have hright := (spells_kindsIn hr (by simp [Delimited])).append ((hcomma _).append hyes)
  have hleft := (spells_kindsIn hl (by simp [Delimited])).append ((his _).append hright)
  have hcall := (hname _ (by simp [Delimited])).append ((hopen _).append hleft)
  obtain ⟨hkinds, hfaults⟩ := hcall
  rw [List.append_nil] at hkinds hfaults
  constructor
  · rw [kindsIn_eq, toList_ifIs, hkinds]
    simp [call, kindsOf]
  · rw [lex_clean_iff, toList_ifIs, hfaults]
    rfl

/-! ## Reading the call -/

/-- An operand that starts with a boolean is that boolean. -/
theorem Grammar.Operand.eq_bool {ks : List Kind} (h : Operand ks l) {x : Bool}
    (hx : ks.head? = some (.bool x)) : ks = [.bool x] := by
  cases h with
  | simple hsimple =>
      cases hsimple with
      | bool => rw [Kind.bool.inj (Option.some.inj hx)]
      | text | var | group => cases hx
  | replaceCall hcall =>
      cases hcall with
      | call => cases hx

/-- A test that starts with a boolean is that boolean. -/
theorem Grammar.IfTest.eq_bool {ks : List Kind} {t : Test} (h : IfTest ks t) {x : Bool}
    (hx : ks.head? = some (.bool x)) : ks = [.bool x] := by
  cases h with
  | literal => rw [Kind.bool.inj (Option.some.inj hx)]
  | is hl hhead =>
      obtain ⟨k, rest, rfl, -⟩ := hl.exists_cons
      exact absurd hx (hhead x)

/-- The call is read as the test that compares what its sides are read as, unless
its left side is a boolean. -/
theorem parseExpr_ifIs (hl : IsPhrase Operand L l) (hr : IsPhrase Operand R r)
    (ha : IsPhrase Expression A a) (hb : IsPhrase Expression B b) (hbool : ¬ IsBoolean L) :
    parseExpr (ifIs L R A B) false = .ok ⟨.ifElse (.is l r) a b, []⟩ := by
  have hhead : ∀ x, (kindsIn L).head? ≠ some (.bool x) := fun x hx =>
    hbool ⟨x, hl.derived.eq_bool hx⟩
  have htest : IfTest (kindsIn L ++ .is :: kindsIn R) (.is l r) := .is hl.derived hhead hr.derived
  have hcall : IfCall (call "if" (kindsIn L ++ .is :: kindsIn R) (kindsIn A) (kindsIn B))
      (.ifElse (.is l r) a b) := .call rfl htest ha.derived hb.derived
  have hsides : Shallow .leftParen .rightParen 63 (kindsIn L ++ .is :: kindsIn R) :=
    (shallow_append (hl.derived.induct hereditary_balanced)).mpr
      ⟨hl.shallow, (shallow_cons (by simp) (by simp)).mpr hr.shallow⟩
  have hshallow : Shallow .leftParen .rightParen 64
      (call "if" (kindsIn L ++ .is :: kindsIn R) (kindsIn A) (kindsIn B)) :=
    (shallow_call (htest.induct hereditary_balanced) (ha.derived.induct hereditary_balanced)
      (hb.derived.induct hereditary_balanced)).mpr ⟨63, rfl, hsides, ha.shallow, hb.shallow⟩
  obtain ⟨hkinds, hclean⟩ := lex_ifIs hl.clean hr.clean ha.clean hb.clean
  refine parseExpr_of_kindsIn hclean ?_ false
  rw [hkinds]
  refine ⟨⟨0, ?_⟩, hshallow⟩
  rw [List.replicate_zero, List.append_nil]
  exact .single (.ifCall hcall)

/-! ## A boolean in front -/

/-- Behind a test that starts with a boolean stands what is behind the test. -/
theorem Grammar.IfTest.ne_bool_is {ks more ls : List Kind} {t : Test} (h : IfTest ks t)
    {x : Bool} : ks ++ .comma :: more ≠ .bool x :: .is :: ls := by
  intro heq
  have hhead : ks.head? = some (.bool x) := by
    cases ks with
    | nil => cases heq
    | cons => exact congrArg some (List.cons.inj heq).1
  rw [h.eq_bool hhead] at heq
  cases heq

/-- No term compares a boolean with something. -/
theorem Grammar.Term.not_bool_is {ks more ls : List Kind} {e : Expr} (h : Term ks e) {x : Bool}
    (heq : ks ++ more = .ident "if" :: .leftParen :: .bool x :: .is :: ls) : False := by
  cases h with
  | simple hsimple => cases hsimple <;> cases heq
  | ifCall hcall =>
      cases hcall with
      | call _ htest _ _ =>
          simp only [call, List.cons_append, List.append_assoc, List.cons.injEq] at heq
          exact htest.ne_bool_is heq.2.2
  | replaceCall hcall =>
      cases hcall with
      | call hname =>
          obtain rfl := Kind.ident.inj (List.cons.inj heq).1
          exact absurd hname (by decide)

/-- No expression starts with a call that compares a boolean with something. -/
theorem Grammar.Expression.not_bool_is {ls : List Kind} {e : Expr} {x : Bool} :
    ¬ Expression (.ident "if" :: .leftParen :: .bool x :: .is :: ls) e := by
  intro h
  cases h with
  | single hterm => exact hterm.not_bool_is (List.append_nil _)
  | run hrun hlen =>
      generalize hks : Kind.ident "if" :: .leftParen :: .bool x :: .is :: ls = ks at hrun
      cases hrun with
      | one hterm => exact hterm.not_bool_is ((List.append_nil _).trans hks.symm)
      | cons hterm _ => exact hterm.not_bool_is hks.symm

/-- A boolean on the left is not compared with anything: the call cannot be read. -/
theorem parseExpr_ifIs_of_isBoolean (hl : (lex L).anomalies = []) (hr : (lex R).anomalies = [])
    (ha : (lex A).anomalies = []) (hb : (lex B).anomalies = []) (hbool : IsBoolean L) :
    ∃ fault, parseExpr (ifIs L R A B) false = .error fault := by
  obtain ⟨x, hx⟩ := hbool
  cases hread : parseExpr (ifIs L R A B) false with
  | error fault => exact ⟨fault, rfl⟩
  | ok p =>
      obtain ⟨tree, as⟩ := p
      obtain ⟨⟨⟨n, hderived⟩, -⟩, -⟩ := parseExpr_eq_ok.mp hread
      rw [← kindsIn_eq, (lex_ifIs hl hr ha hb).1, hx] at hderived
      exact absurd hderived Grammar.Expression.not_bool_is

/-! ## Values of the call -/

section
variable (hl : IsPhrase Operand L l) (hr : IsPhrase Operand R r)
  (ha : IsPhrase Expression A a) (hb : IsPhrase Expression B b)
include hl hr ha hb

/-- Unless its left side is a boolean, the call compares its sides. -/
theorem evaluateValue_ifIs (hbool : ¬ IsBoolean L) (s : State) :
    evaluateValue (ifIs L R A B) s =
      ((if (l.eval s).looselyEqual (r.eval s) then a else b).eval s).topLevel := by
  have hread := Evaluator.parseValue_of_clean (parseExpr_ifIs hl hr ha hb hbool) (.inl nofun) {}
  have hbranch : (Expr.ifElse (.is l r) a b).eval s =
      (if (l.eval s).looselyEqual (r.eval s) then a else b).eval s := by
    show (if (l.eval s).looselyEqual (r.eval s) then a.eval s else b.eval s) = _
    exact (apply_ite (Expr.eval s) _ a b).symm
  have hvalue : ({} : Evaluator).value? (ifIs L R A B) s =
      .ok ((Expr.ifElse (.is l r) a b).eval s).topLevel := map_eq_ok.mpr ⟨_, hread, rfl⟩
  rw [evaluateValue, Evaluator.value, hvalue, hbranch]

/-- With a boolean on its left side, the call stands for its own text. -/
theorem evaluateValue_ifIs_of_isBoolean (hbool : IsBoolean L) (s : State) :
    evaluateValue (ifIs L R A B) s = .text (ifIs L R A B) := by
  obtain ⟨fault, hread⟩ := parseExpr_ifIs_of_isBoolean hl.clean hr.clean ha.clean hb.clean hbool
  have hletter : ¬ IsQuote 'i' := by simp [IsQuote]
  have hquote : ¬ Enclosed (ifIs L R A B).toList := by
    rintro ⟨q, hq, hhead, -⟩
    obtain rfl : 'i' = q := Option.some.inj (head?_ifIs.symm.trans hhead)
    exact hletter hq
  have hplain : isPlain (ifIs L R A B).toList = false := by
    by_contra h
    have hmem : ')' ∈ (ifIs L R A B).toList := List.mem_of_getLast? getLast?_ifIs
    have hmark : ')' ∈ marks := by decide
    exact not_mem_marks_of_isPlain (eq_true_of_ne_false h) _ hmem hmark
  exact Evaluator.value_of_error trim_ifIs hquote hplain hread s

/-- The sides of `is` can be swapped, as long as neither of them is a boolean: the
call compares them in either order, and the comparison is symmetric. With a boolean
on its left side, the call cannot be read and stands for its own text. -/
theorem evaluateValue_ifIs_comm (s : State) :
    (¬ IsBoolean L → ¬ IsBoolean R →
      evaluateValue (ifIs L R A B) s = evaluateValue (ifIs R L A B) s) ∧
    (¬ IsBoolean L → evaluateValue (ifIs L R A B) s =
      ((if (l.eval s).looselyEqual (r.eval s) then a else b).eval s).topLevel) ∧
    (IsBoolean L → evaluateValue (ifIs L R A B) s = .text (ifIs L R A B)) := by
  refine ⟨fun hleft hright => ?_, fun hbool => ?_, fun hbool => ?_⟩
  · rw [evaluateValue_ifIs hl hr ha hb hleft, evaluateValue_ifIs hr hl ha hb hright,
      Value.looselyEqual_comm]
  · exact evaluateValue_ifIs hl hr ha hb hbool s
  · exact evaluateValue_ifIs_of_isBoolean hl hr ha hb hbool s

end

/-- One of several values against a literal in another letter case, in both orders. -/
theorem evaluateValue_ifIs_comm_list :
    IsPhrase Operand "\x7bx\x7d" (.var (.ofText "x")) ∧ IsPhrase Operand "'B'" (.text "B") ∧
      IsPhrase Expression "'a'" (.text "a") ∧ IsPhrase Expression "'b'" (.text "b") ∧
      ¬ IsBoolean "\x7bx\x7d" ∧ ¬ IsBoolean "'B'" ∧
      evaluateValue (ifIs "\x7bx\x7d" "'B'" "'a'" "'b'") (.ofPairs [("x", .list ["c", "b"])]) =
        .text "a" ∧
      evaluateValue (ifIs "'B'" "\x7bx\x7d" "'a'" "'b'") (.ofPairs [("x", .list ["c", "b"])]) =
        .text "a" := by
  have hvar : kindsIn "\x7bx\x7d" = [.var "x"] := by decide +kernel
  have htext : kindsIn "'B'" = [.text "B"] := by decide +kernel
  have hl : IsPhrase Operand "\x7bx\x7d" (.var (.ofText "x")) :=
    (isPhrase_of_simple ⟨hvar, by decide +kernel⟩ .var).1
  have hr : IsPhrase Operand "'B'" (.text "B") :=
    (isPhrase_of_simple ⟨htext, by decide +kernel⟩ .text).1
  have ha : IsPhrase Expression "'a'" (.text "a") :=
    (isPhrase_of_simple (by decide +kernel) .text).2
  have hb : IsPhrase Expression "'b'" (.text "b") :=
    (isPhrase_of_simple (by decide +kernel) .text).2
  have hleft : ¬ IsBoolean "\x7bx\x7d" := by simp [IsBoolean, hvar]
  have hright : ¬ IsBoolean "'B'" := by simp [IsBoolean, htext]
  obtain ⟨hcomm, hvalue, -⟩ :=
    evaluateValue_ifIs_comm hl hr ha hb (.ofPairs [("x", .list ["c", "b"])])
  have hequal := (hvalue hleft).trans (by decide +kernel : _ = Value.text "a")
  exact ⟨hl, hr, ha, hb, hleft, hright, hequal, (hcomm hleft hright).symm.trans hequal⟩

/-- With a boolean for one side, the order does count. -/
theorem evaluateValue_ifIs_true :
    IsPhrase Operand "true" (.bool true) ∧ IsPhrase Operand "\x7bx\x7d" (.var (.ofText "x")) ∧
      IsPhrase Expression "'a'" (.text "a") ∧ IsPhrase Expression "'b'" (.text "b") ∧
      evaluateValue (ifIs "true" "\x7bx\x7d" "'a'" "'b'") (.ofPairs [("x", .bool true)]) =
        .text "if(true is \x7bx\x7d, 'a', 'b')" ∧
      evaluateValue (ifIs "\x7bx\x7d" "true" "'a'" "'b'") (.ofPairs [("x", .bool true)]) =
        .text "a" ∧
      evaluateValue (ifIs "true" "\x7bx\x7d" "'a'" "'b'") (.ofPairs [("x", .bool true)]) ≠
        evaluateValue (ifIs "\x7bx\x7d" "true" "'a'" "'b'") (.ofPairs [("x", .bool true)]) := by
  have hl : IsPhrase Operand "true" (.bool true) :=
    (isPhrase_of_simple (by decide +kernel) .bool).1
  have hr : IsPhrase Operand "\x7bx\x7d" (.var (.ofText "x")) :=
    (isPhrase_of_simple (by decide +kernel) .var).1
  have ha : IsPhrase Expression "'a'" (.text "a") :=
    (isPhrase_of_simple (by decide +kernel) .text).2
  have hb : IsPhrase Expression "'b'" (.text "b") :=
    (isPhrase_of_simple (by decide +kernel) .text).2
  have hpassed : evaluateValue (ifIs "true" "\x7bx\x7d" "'a'" "'b'")
      (.ofPairs [("x", .bool true)]) = .text "if(true is \x7bx\x7d, 'a', 'b')" := by decide +kernel
  have hequal : evaluateValue (ifIs "\x7bx\x7d" "true" "'a'" "'b'")
      (.ofPairs [("x", .bool true)]) = .text "a" := by decide +kernel
  refine ⟨hl, hr, ha, hb, hpassed, hequal, ?_⟩
  rw [hpassed, hequal]
  decide

end Expr

end FormLogic
