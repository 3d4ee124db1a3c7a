import FormLogic.Proofs.Evaluator
import FormLogic.Proofs.Expr.Written
import FormLogic.Proofs.Padding
import FormLogic.Proofs.Text.Letters

/-!
# FormLogic.Proofs.Expr.Clean

Value expressions in which nothing is out of place. Whether a text is one
depends on the kinds of its tokens alone (`parseExpr_clean`), strictness does not
matter to it, and neither do the blanks around it (`parseExpr_trim`). Its last
character is a blank or one that a token may end in, so it does not end in a
backslash.
-/

namespace FormLogic

open Text

namespace Expr

open Grammar

/-! ## Reading kinds -/

/-- The kinds that are read as an expression: some closing parentheses behind
them complete a derivation, and no more of them are open than readers allow. -/
def Accepts (ks : List Kind) (e : Expr) : Prop :=
  (∃ n, Expression (ks ++ List.replicate n .rightParen) e) ∧
    Shallow .leftParen .rightParen 64 ks

/-- The kinds of a text decide whether it is an expression. -/
theorem parseExpr_eq_ok {source : String} {strict : Bool} {e : Expr} {as : List Anomaly} :
    parseExpr source strict = .ok ⟨e, as⟩ ↔
      Accepts (kindsOf (cut nextPiece source.toList)) e ∧ as = (lex source).anomalies ∧
        (strict = true → as = []) := by
  have hread : ofTokens source (lex source).tokens = .ok e ↔
      Accepts (kindsOf (cut nextPiece source.toList)) e := by
    rw [← kindsAhead_lex]
    exact run_whole_expression_eq_ok
  rw [parseExpr, parseWith_eq_ok, hread]

/-- A text is an expression with nothing out of place exactly when its kinds are
read as the expression and its pieces are blanks and tokens. -/
theorem parseExpr_clean {source : String} {strict : Bool} {e : Expr} :
    parseExpr source strict = .ok ⟨e, []⟩ ↔
      Accepts (kindsOf (cut nextPiece source.toList)) e ∧
        faultsOf (cut nextPiece source.toList) = [] := by
  have hclean : [] = (lex source).anomalies ↔ faultsOf (cut nextPiece source.toList) = [] := by
    rw [eq_comm]
    exact anomaliesOf_eq_nil_iff
  rw [parseExpr_eq_ok, hclean]
  simp

/-! ## Pieces that are tokens -/

/-- The kinds that are spelled with one character. -/
def spelledAlone : List (Char × Kind) :=
  [(',', .comma), ('+', .plus), ('(', .leftParen), (')', .rightParen)]

theorem nextPiece_of_mem_spelledAlone {c : Char} {k : Kind} (h : (c, k) ∈ spelledAlone)
    (rest : List Char) : nextPiece c rest = charPiece c (.token k) := by
  simp only [spelledAlone, List.mem_cons, Prod.mk.injEq, List.not_mem_nil, or_false] at h
  rcases h with ⟨rfl, rfl⟩ | ⟨rfl, rfl⟩ | ⟨rfl, rfl⟩ | ⟨rfl, rfl⟩ <;> rfl

/-- The character in front decides what a piece is. -/
theorem nextPiece_cases (c : Char) :
    (isBlank c = true ∧ ∀ rest, nextPiece c rest = charPiece c .blank) ∨
      (c = '{' ∧ ∀ rest, nextPiece c rest = variablePiece .var rest) ∨
      ((c = '\'' ∨ c = '"') ∧ ∀ rest, nextPiece c rest = literalPiece .text c rest) ∨
      (∃ k, (c, k) ∈ spelledAlone ∧ ∀ rest, nextPiece c rest = charPiece c (.token k)) ∨
      (isNameStart c = true ∧
        ∀ rest, nextPiece c rest = wordPiece isNameChar readName c rest) ∨
      (isBlank c = false ∧
        ∀ rest, nextPiece c rest = charPiece c (.skipped (.unexpectedCharacter c))) := by
  by_cases hblank : isBlank c = true
  · exact .inl ⟨hblank, fun rest => by rw [nextPiece, if_pos hblank]⟩
  by_cases hvariable : c = '{'
  · exact .inr (.inl ⟨hvariable, fun rest => by rw [hvariable]; rfl⟩)
  by_cases hquote : c = '\'' ∨ c = '"'
  · refine .inr (.inr (.inl ⟨hquote, fun rest => ?_⟩))
    rw [nextPiece, if_neg hblank, if_neg hvariable, if_pos hquote]
  by_cases hmark : ∃ k, (c, k) ∈ spelledAlone
  · obtain ⟨k, hk⟩ := hmark
    exact .inr (.inr (.inr (.inl ⟨k, hk, nextPiece_of_mem_spelledAlone hk⟩)))
  · have hne : ∀ d k, (d, k) ∈ spelledAlone → c ≠ d := fun d k hk heq => hmark ⟨k, heq ▸ hk⟩
    have hrest : ∀ rest, nextPiece c rest =
        if isNameStart c then wordPiece isNameChar readName c rest
        else charPiece c (.skipped (.unexpectedCharacter c)) := fun rest => by
      rw [nextPiece, if_neg hblank, if_neg hvariable, if_neg hquote,
        if_neg (hne ',' .comma (by decide)), if_neg (hne '+' .plus (by decide)),
        if_neg (hne '(' .leftParen (by decide)), if_neg (hne ')' .rightParen (by decide))]
    by_cases hword : isNameStart c = true
    · exact .inr (.inr (.inr (.inr (.inl ⟨hword, fun rest => by rw [hrest, if_pos hword]⟩))))
    · refine .inr (.inr (.inr (.inr (.inr ⟨eq_false_of_ne_true hblank, fun rest => ?_⟩))))
      rw [hrest, if_neg hword]

/-- A token is a variable, a literal, a mark that stands alone or a word. -/
theorem nextPiece_of_token? {c : Char} {rest : List Char} {k : Kind}
    (h : (nextPiece c rest).reading.token? = some k) :
    (c = '{' ∧ nextPiece c rest = variablePiece .var rest) ∨
      ((c = '\'' ∨ c = '"') ∧ nextPiece c rest = literalPiece .text c rest) ∨
      ((c, k) ∈ spelledAlone ∧ nextPiece c rest = charPiece c (.token k)) ∨
      (isNameStart c = true ∧ nextPiece c rest = wordPiece isNameChar readName c rest) := by
  rcases nextPiece_cases c with ⟨-, hnext⟩ | ⟨hvariable, hnext⟩ | ⟨hquote, hnext⟩ |
    ⟨l, hmark, hnext⟩ | ⟨hword, hnext⟩ | ⟨-, hnext⟩
  · rw [hnext] at h
    contradiction
  · exact .inl ⟨hvariable, hnext rest⟩
  · exact .inr (.inl ⟨hquote, hnext rest⟩)
  · rw [hnext] at h
    obtain rfl := Option.some.inj h
    exact .inr (.inr (.inl ⟨hmark, hnext rest⟩))
  · exact .inr (.inr (.inr ⟨hword, hnext rest⟩))
  · rw [hnext] at h
    contradiction

/-! ## Where tokens end -/

theorem isNameChar_of_isNameStart {c : Char} (h : isNameStart c = true) :
    isNameChar c = true := by
  unfold isNameStart at h
  unfold isNameChar Char.isAlphanum
  grind

theorem isBlank_of_isNameChar {c : Char} (h : isNameChar c = true) : isBlank c = false := by
  have hn : 48 ≤ c.toNat ∧ c.toNat ≤ 57 ∨ 65 ≤ c.toNat ∧ c.toNat ≤ 90 ∨
      97 ≤ c.toNat ∧ c.toNat ≤ 122 ∨ c.toNat = 95 := by
    simp only [isNameChar, Char.isAlphanum, Bool.or_eq_true, beq_iff_eq] at h
    rcases h with (halpha | hdigit) | rfl
    · have hletter := toNat_of_isAlpha halpha
      omega
    · exact .inl (toNat_of_isDigit hdigit)
    · exact .inr (.inr (.inr rfl))
  simp [isBlank]
  omega

/-- Whether a token may end in the character. -/
def isTokenEnd (c : Char) : Bool :=
  isNameChar c || ['}', '\'', '"', ',', '+', '(', ')'].contains c

theorem isBlank_of_isTokenEnd {c : Char} (h : isTokenEnd c = true) : isBlank c = false := by
  simp only [isTokenEnd, Bool.or_eq_true] at h
  rcases h with hname | hmark
  · exact isBlank_of_isNameChar hname
  · have hmarks : ['}', '\'', '"', ',', '+', '(', ')'].all (fun d => !isBlank d) = true := by
      decide
    simpa using List.all_eq_true.mp hmarks c (List.contains_iff_mem.mp hmark)

theorem isNameChar_of_mem_wordPiece {c : Char} (h : isNameStart c = true) {rest : List Char} :
    ∀ d ∈ (wordPiece isNameChar readName c rest).text, isNameChar d = true :=
  List.forall_mem_cons.mpr ⟨isNameChar_of_isNameStart h, fun _ hd => List.mem_takeWhile_imp hd⟩

/-- A token ends in a name, in a mark or in its closing mark. -/
theorem isTokenEnd_of_getLast? {c : Char} {rest : List Char} {k : Kind}
    (h : (nextPiece c rest).reading = .token k) :
    ∀ d ∈ (nextPiece c rest).text.getLast?, isTokenEnd d = true := by
  rcases nextPiece_of_token? (by rw [h]; rfl) with
    ⟨-, hnext⟩ | ⟨hquote, hnext⟩ | ⟨hmark, hnext⟩ | ⟨hword, hnext⟩
  · rw [hnext] at h ⊢
    rw [getLast?_variablePiece h]
    rintro _ ⟨⟩
    rfl
  · rw [hnext] at h ⊢
    rw [getLast?_literalPiece h]
    rintro _ ⟨⟩
    rcases hquote with rfl | rfl <;> rfl
  · have hmarks : spelledAlone.all (fun p => isTokenEnd p.1) = true := by decide
    rw [hnext]
    rintro _ ⟨⟩
    exact List.all_eq_true.mp hmarks (c, k) hmark
  · rw [hnext]
    intro d hd
    have hname := isNameChar_of_mem_wordPiece hword d (List.mem_of_getLast? hd)
    rw [isTokenEnd, hname, Bool.true_or]

/-- What is skipped is one character, and no blank. -/
theorem isBlank_of_skipped {c : Char} {rest : List Char} {why : AnomalyKind}
    (h : (nextPiece c rest).reading = .skipped why) :
    ∀ d ∈ (nextPiece c rest).text.getLast?, isBlank d = false := by
  rcases nextPiece_cases c with ⟨-, hnext⟩ | ⟨-, hnext⟩ | ⟨-, hnext⟩ | ⟨k, -, hnext⟩ |
    ⟨-, hnext⟩ | ⟨hblank, hnext⟩
  · rw [hnext] at h
    contradiction
  · rw [hnext] at h
    exact absurd h (variablePiece_ne_skipped why)
  · rw [hnext] at h
    exact absurd h (literalPiece_ne_skipped why)
  · rw [hnext] at h
    contradiction
  · rw [hnext] at h
    simp only [wordPiece, readName] at h
    split_ifs at h
  · rw [hnext]
    rintro _ ⟨⟩
    exact hblank

/-- Blanks keep the tokens of value expressions apart. -/
theorem paddedCut : PaddedCut nextPiece where
  toLawfulCut := lawfulCut
  blank c rest hc := by rw [nextPiece, if_pos hc]
  token_end c rest k h d hd := isBlank_of_isTokenEnd (isTokenEnd_of_getLast? h d hd)
  skipped_end c rest why h := isBlank_of_skipped h

/-! ## Ends of an expression -/

/-- An expression is read as it is without the blanks around it. -/
theorem parseExpr_trim {source : String} {strict : Bool} {e : Expr}
    (h : parseExpr source strict = .ok ⟨e, []⟩) (strict' : Bool) :
    parseExpr (String.ofList (trim source.toList)) strict' = .ok ⟨e, []⟩ := by
  obtain ⟨hkinds, hclean⟩ := parseExpr_clean.mp h
  obtain ⟨htrim, hfaults⟩ := kindsOf_cut_trim paddedCut (isOpen_of_faultsOf_eq_nil hclean)
  rw [parseExpr_clean, String.toList_ofList, htrim, hfaults]
  exact ⟨hkinds, hclean⟩

/-- A text in which nothing is out of place ends in a blank or in a token. -/
theorem isTokenEnd_of_clean {source : List Char} (h : faultsOf (cut nextPiece source) = []) :
    ∀ d ∈ source.getLast?, isBlank d = true ∨ isTokenEnd d = true := by
  revert h
  refine cut_induction lawfulCut (motive := fun source pieces => faultsOf pieces = [] →
    ∀ d ∈ source.getLast?, isBlank d = true ∨ isTokenEnd d = true) (by simp) ?_ source
  intro c s t hstarts ih hclean d hd
  obtain ⟨hhead, htail⟩ := List.forall_mem_cons.mp (faultsOf_eq_nil_iff.mp hclean)
  rw [List.getLast?_append] at hd
  cases ht : t.getLast? with
  | some e =>
      obtain rfl : e = d := by simpa [ht] using hd
      exact ih (faultsOf_eq_nil_iff.mpr htail) e ht
  | none =>
      rw [ht, Option.none_or, ← hstarts.text] at hd
      rcases hhead with hblank | ⟨k, htoken⟩
      · have hsound := sound_nextPiece c (s ++ t)
        rw [Piece.Sound, hblank] at hsound
        exact .inl (hsound d (List.mem_of_getLast? hd))
      · exact .inr (isTokenEnd_of_getLast? htoken d hd)

theorem getLast?_ne_backslash {source : List Char} (h : faultsOf (cut nextPiece source) = []) :
    source.getLast? ≠ some '\\' := by
  intro hlast
  rcases isTokenEnd_of_clean h '\\' hlast with hblank | hend
  · contradiction
  · contradiction

end Expr

end FormLogic
