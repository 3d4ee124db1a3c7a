import FormLogic.Proofs.Expr.Clean

/-!
# FormLogic.Proofs.Expr.Plain

Texts that are plain against texts that are expressions. The tokens of a plain
text are names, booleans and `is` (`isWord_of_isPlain`), and the only expression
that is made of these is a boolean alone (`Expression.eq_bool`). Where nothing is
out of place that boolean is all that the text holds, and then the text is not
plain (`eq_bool_of_isPlain`).
-/

namespace FormLogic

open Text

namespace Expr

open Grammar

/-! ## Words alone -/

/-- A name, a boolean or an `is`. -/
def Kind.IsWord : Kind → Prop
  | .bool _ | .is | .ident _ => True
  | _ => False

/-- The only expression that is made of words is a boolean alone. -/
theorem Grammar.Expression.eq_bool {ks : List Kind} {e : Expr} (h : Expression ks e)
    (hks : ∀ k ∈ ks, k.IsWord) : ∃ b, ks = [.bool b] ∧ e = .bool b := by
  have hcall : ∀ name ls ms ns, ks ≠ call name ls ms ns := by
    rintro name ls ms ns rfl
    exact hks .leftParen (by simp [call])
  cases h with
  | single hterm =>
      cases hterm with
      | simple hsimple =>
          cases hsimple with
          | bool => exact ⟨_, rfl, rfl⟩
          | text => exact (hks _ List.mem_cons_self).elim
          | var => exact (hks _ List.mem_cons_self).elim
          | group => exact (hks _ List.mem_cons_self).elim
      | ifCall hif =>
          cases hif with
          | call => exact absurd rfl (hcall _ _ _ _)
      | replaceCall hreplace =>
          cases hreplace with
          | call => exact absurd rfl (hcall _ _ _ _)
  | run hrun hlen =>
      cases hrun with
      | one => simp at hlen
      | cons => exact (hks .plus (by simp)).elim

/-- Words have no closing parentheses to miss. -/
theorem Accepts.eq_bool {ks : List Kind} {e : Expr} (h : Accepts ks e)
    (hks : ∀ k ∈ ks, k.IsWord) : ∃ b, ks = [.bool b] ∧ e = .bool b := by
  obtain ⟨⟨n, hderived⟩, -⟩ := h
  have hnone : ∀ k : Kind, ¬ k.IsWord → ks.count k = 0 := fun k hk =>
    List.count_eq_zero.mpr fun hmem => hk (hks k hmem)
  have hbalanced : Balanced Kind.leftParen .rightParen ks := by
    rw [Balanced, hnone _ id, hnone _ id]
  obtain rfl : n = 0 :=
    eq_zero_of_balanced (by simp) hbalanced (hderived.induct hereditary_balanced)
  rw [List.replicate_zero, List.append_nil] at hderived
  exact hderived.eq_bool hks

/-! ## Plain texts -/

/-- The marks of the value language. -/
def marks : List Char := ['{', '}', '\'', '"', '+', '(', ')', ',']

theorem isPlain_iff {text : List Char} :
    isPlain text = true ↔
      (∀ c ∈ trim text, c ∉ marks) ∧ lowercase (trim text) ≠ "true".toList ∧
        lowercase (trim text) ≠ "false".toList ∧
          ∀ w ∈ words (trim text), w.map Char.toLower ≠ "is".toList := by
  simp [isPlain, marks, and_assoc]

/-- A plain text holds no mark, for no blank is one. -/
theorem not_mem_marks_of_isPlain {text : List Char} (h : isPlain text = true) :
    ∀ c ∈ text, c ∉ marks := by
  obtain ⟨u, v, htext, hu, hv⟩ := exists_eq_append_trim text
  have hblank : ∀ c, isBlank c = true → c ∉ marks := by
    have hmarks : marks.all (fun d => !isBlank d) = true := by decide
    intro c hc hmem
    simpa [hc] using List.all_eq_true.mp hmarks c hmem
  intro c hc
  rw [htext, List.mem_append, List.mem_append] at hc
  rcases hc with hc | hc | hc
  · exact hblank c (hu c hc)
  · exact (isPlain_iff.mp h).1 c hc
  · exact hblank c (hv c hc)

/-- A token that starts with no mark is a word. -/
theorem isWord_of_not_mem_marks {c : Char} (hc : c ∉ marks) {rest : List Char} {k : Kind}
    (h : (nextPiece c rest).reading.token? = some k) : k.IsWord := by
  rcases nextPiece_of_token? h with
    ⟨rfl, -⟩ | ⟨rfl | rfl, -⟩ | ⟨hmark, -⟩ | ⟨-, hnext⟩
  · exact absurd (by decide) hc
  · exact absurd (by decide) hc
  · exact absurd (by decide) hc
  · have hmarks : spelledAlone.all (fun p => marks.contains p.1) = true := by decide
    exact absurd (List.contains_iff_mem.mp (List.all_eq_true.mp hmarks (c, k) hmark)) hc
  · rw [hnext] at h
    rcases token?_readName h with ⟨b, rfl⟩ | rfl | ⟨name, rfl⟩ <;> trivial

/-- The tokens of a plain text are words. -/
theorem isWord_of_isPlain {text : List Char} (h : isPlain text = true) :
    ∀ k ∈ kindsOf (cut nextPiece text), k.IsWord := by
  intro k hk
  obtain ⟨piece, hpiece, htoken⟩ := List.mem_filterMap.mp hk
  obtain ⟨c, hc, rest, rfl⟩ := exists_mem_of_mem_cut hpiece
  exact isWord_of_not_mem_marks (not_mem_marks_of_isPlain h c hc) htoken

theorem lowercase_of_readName {name : List Char} {b : Bool}
    (h : (readName name).token? = some (.bool b)) : lowercase name = (toString b).toList := by
  unfold readName at h
  dsimp only at h
  split_ifs at h with htrue hfalse his
  · cases Option.some.inj h
    exact htrue
  · cases Option.some.inj h
    exact hfalse
  · cases Option.some.inj h
  · cases Option.some.inj h

/-- A boolean is a word that is spelled `true` or `false` in some letter case. -/
theorem lowercase_of_bool {c : Char} {rest : List Char} {b : Bool}
    (h : (nextPiece c rest).reading.token? = some (.bool b)) :
    lowercase (nextPiece c rest).text = (toString b).toList := by
  rcases nextPiece_of_token? h with ⟨-, hnext⟩ | ⟨-, hnext⟩ | ⟨hmark, -⟩ | ⟨-, hnext⟩
  · rw [hnext] at h
    obtain ⟨name, hkind, -⟩ := isName_of_variablePiece h
    contradiction
  · rw [hnext, token?_literalPiece] at h
    cases Option.some.inj h
  · simp [spelledAlone] at hmark
  · rw [hnext] at h ⊢
    exact lowercase_of_readName h

/-- A plain text is no expression, unless it is a boolean with something out of
place beside it. -/
theorem eq_bool_of_isPlain {source : String} (h : isPlain source.toList = true) {strict : Bool}
    {p : Parsed Expr} (hp : parseExpr source strict = .ok p) :
    (∃ b, p.tree = .bool b) ∧ p.anomalies ≠ [] := by
  obtain ⟨e, as⟩ := p
  obtain ⟨b, hkinds, rfl⟩ := (parseExpr_eq_ok.mp hp).1.eq_bool (isWord_of_isPlain h)
  refine ⟨⟨b, rfl⟩, ?_⟩
  -- with nothing out of place, the boolean would be the whole text without its blanks
  rintro rfl
  obtain ⟨c, rest, htoken, htext⟩ :=
    exists_token_of_kindsOf_eq paddedCut (parseExpr_clean.mp hp).2 hkinds
  have hlower : lowercase (nextPiece c rest).text = (toString b).toList :=
    lowercase_of_bool (by rw [htoken]; rfl)
  rw [htext] at hlower
  obtain ⟨-, htrue, hfalse, -⟩ := isPlain_iff.mp h
  cases b with
  | true => exact htrue hlower
  | false => exact hfalse hlower

/-- An expression in which nothing is out of place is no plain text. -/
theorem not_isPlain_of_clean {source : String} {strict : Bool} {e : Expr}
    (h : parseExpr source strict = .ok ⟨e, []⟩) : isPlain source.toList = false := by
  cases hplain : isPlain source.toList with
  | false => rfl
  | true => exact absurd rfl (eq_bool_of_isPlain hplain h).2

end Expr

end FormLogic
