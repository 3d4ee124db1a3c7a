import FormLogic.Proofs.Evaluator
import FormLogic.Proofs.Expr.Sides
import FormLogic.Proofs.Expr.Written

/-!
# FormLogic.Proofs.Expr.Canonical

Which value expressions are read back from their canonical text. The canonical
text of an expression writes out its kinds (`written_kinds`), which are lexed as
such unless a name or a text gets lost between its marks. These kinds derive the
expression when every `+` joins two parts or more and the sides of every test
can be operands as they stand (`expression_kinds`). A side that cannot would be
read back only from behind a parenthesis of its own, which the canonical text
does not write (`misplaced_le`).
-/

namespace FormLogic

open Text

namespace Expr

/-- What it takes to be read back from canonical text: runs of `+` with two parts
or more, paths and texts that the marks around them leave alone, no sides of
tests that need parentheses, and no more nesting than readers allow. -/
structure Restorable (e : Expr) : Prop where
  joined : ∀ es, .concat es ∈ e.nodes → 2 ≤ es.length
  path : ∀ p, .var p ∈ e.nodes → IsName p.raw ∧ p.segments = (Path.ofText p.raw).segments
  text : ∀ s, .text s ∈ e.nodes → Doublable '\'' s.toList
  sides : ∀ l r yes no, .ifElse (.is l r) yes no ∈ e.nodes →
    l.isBool = false ∧ l.isIf = false ∧ r.isIf = false
  nesting : e.nesting ≤ 64

open Grammar

/-! ## Derivations of kinds -/

/-- Whether a node is derived from its kinds, given that what it is made of
is. -/
def Derivable : Expr → Prop
  | .concat es => 2 ≤ es.length
  | .var p => p = Path.ofText p.raw
  | .ifElse (.is l r) _ _ => l.isBool = false ∧ l.isIf = false ∧ r.isIf = false
  | _ => True

theorem kinds_derive_of_term {e : Expr} (hconcat : e.isConcat = false) (h : Term e.kinds e) :
    Expression e.kinds e ∧ Term e.kindsInside e := by
  refine ⟨.single h, ?_⟩
  rw [kindsInside, operandKinds, if_neg (by simp [hconcat])]
  exact h

/-- A term that is no `if` may be a side of a test. -/
theorem Grammar.Term.operand {ks : List Kind} {e : Expr} (h : Term ks e) (hif : e.isIf = false) :
    Operand ks e := by
  cases h with
  | simple h => exact .simple h
  | ifCall h =>
      cases h with
      | call => simp [isIf] at hif
  | replaceCall h => exact .replaceCall h

theorem head?_kindsInside_ne {e : Expr} (h : e.isBool = false) (b : Bool) :
    e.kindsInside.head? ≠ some (.bool b) := by
  cases e with
  | bool => simp [isBool] at h
  | text | var | concat | ifElse | replaceAll =>
      simp [kindsInside, operandKinds, isConcat, kinds, call]

/-- The kinds of an expression derive it, alone and as an operand. -/
theorem kinds_derive {e : Expr} (h : ∀ n ∈ e.nodes, n.Derivable) :
    Expression e.kinds e ∧ Term e.kindsInside e := by
  induction e with
  | text s => exact kinds_derive_of_term rfl (.simple .text)
  | bool b => exact kinds_derive_of_term rfl (.simple .bool)
  | var p =>
      refine kinds_derive_of_term rfl (.simple ?_)
      have hp : p = Path.ofText p.raw := h (.var p) (by simp [nodes])
      rw [kinds, hp]
      exact .var
  | concat es ih =>
      have hlen : 2 ≤ es.length := h (.concat es) (by simp [nodes])
      have hparts : ∀ e ∈ es, Term e.kindsInside e := fun e he =>
        (ih e he fun n hn => h n (by simpa [nodes] using .inr ⟨e, he, hn⟩)).2
      have hrun : Expression (concat es).kinds (concat es) := by
        rw [kinds, kindsOfParts_eq]
        exact .run (run_intercalate (List.ne_nil_of_length_pos (by omega)) hparts) hlen
      exact ⟨hrun, .simple (.group hrun)⟩
  | ifElse t yes no iht ihyes ihno =>
      have ht : IfTest t.kinds t := by
        cases t with
        | literal b => exact .literal
        | is l r =>
            obtain ⟨hbool, hl, hr⟩ := h (.ifElse (.is l r) yes no) (by simp [nodes])
            have hlterm := (iht l (by simp [Test.sides]) fun n hn =>
              h n (by simp [nodes, Test.sides, hn])).2
            have hrterm := (iht r (by simp [Test.sides]) fun n hn =>
              h n (by simp [nodes, Test.sides, hn])).2
            rw [Test.kinds_is]
            exact .is (hlterm.operand hl) (head?_kindsInside_ne hbool) (hrterm.operand hr)
      have hyes := (ihyes fun n hn => h n (by simp [nodes, hn])).1
      have hno := (ihno fun n hn => h n (by simp [nodes, hn])).1
      refine kinds_derive_of_term rfl ?_
      rw [kinds]
      exact .ifCall (.call (by decide) ht hyes hno)
  | replaceAll v s r ihv ihs ihr =>
      have hv := (ihv fun n hn => h n (by simp [nodes, hn])).1
      have hs := (ihs fun n hn => h n (by simp [nodes, hn])).1
      have hr := (ihr fun n hn => h n (by simp [nodes, hn])).1
      refine kinds_derive_of_term rfl ?_
      rw [kinds]
      exact .replaceCall (.call (by decide) hv hs hr)

/-! ## Expressions of derivations -/

/-- What a derivation from `ks` says about a node of its expression. -/
def Stated (ks : List Kind) : Expr → Prop
  | .concat es => 2 ≤ es.length
  | .var p => p = Path.ofText p.raw ∧ .var p.raw ∈ ks
  | _ => True

theorem Stated.mono {ks ls : List Kind} {n : Expr} (hsub : ks ⊆ ls) (h : Stated ks n) :
    Stated ls n := by
  cases n with
  | var p => exact ⟨h.1, hsub h.2⟩
  | concat es => exact h
  | text | bool | ifElse | replaceAll => trivial

theorem Grammar.hereditary_stated :
    Hereditary (fun ks e => ∀ n ∈ e.nodes, Stated ks n) (fun ks e => ∀ n ∈ e.nodes, Stated ks n)
      (fun ks t => ∀ n ∈ t.nodes, Stated ks n) where
  text s := by simp [nodes, Stated]
  bool b := by simp [nodes, Stated]
  var raw := by simp [nodes, Stated, Path.ofText]
  group ks e h n hn := (h n hn).mono fun k hk => by simp [hk]
  ifCall name ks ls ms t yes no ht hyes hno n hn := by
    simp only [nodes, List.mem_cons, List.mem_append] at hn
    rcases hn with rfl | (hn | hn) | hn
    · trivial
    · exact (ht n hn).mono fun k hk => by simp [call, hk]
    · exact (hyes n hn).mono fun k hk => by simp [call, hk]
    · exact (hno n hn).mono fun k hk => by simp [call, hk]
  replaceCall name ks ls ms v s r hv hs hr n hn := by
    simp only [nodes, List.mem_cons, List.mem_append] at hn
    rcases hn with rfl | (hn | hn) | hn
    · trivial
    · exact (hv n hn).mono fun k hk => by simp [call, hk]
    · exact (hs n hn).mono fun k hk => by simp [call, hk]
    · exact (hr n hn).mono fun k hk => by simp [call, hk]
  single _ _ := id
  run ks es hrun hlen n hn := by
    simp only [nodes, nodesOfParts_eq, List.mem_cons, List.mem_flatMap] at hn
    rcases hn with rfl | ⟨e, he, hn⟩
    · exact hlen
    · obtain ⟨ls, hls, h⟩ := hrun.exists_of_mem he
      exact (h n hn).mono hls
  literal b := by simp [Test.nodes]
  is ks ls l r _ _ _ hl hr n hn := by
    simp only [Test.nodes, List.mem_append] at hn
    rcases hn with hn | hn
    · exact (hl n hn).mono (List.subset_append_left _ _)
    · exact (hr n hn).mono fun k hk => by simp [hk]

/-! ## Literals of derivations -/

theorem filterMap_text?_group (ks : List Kind) :
    (Kind.leftParen :: ks ++ [Kind.rightParen]).filterMap Kind.text? = ks.filterMap Kind.text? := by
  simp [List.filterMap_cons, Kind.text?]

theorem filterMap_text?_kindsInside (e : Expr) :
    e.kindsInside.filterMap Kind.text? = e.kinds.filterMap Kind.text? :=
  kindsInside_of (p := fun ks => ks.filterMap Kind.text? = _) rfl (filterMap_text?_group _)

theorem filterMap_text?_call (name : String) (ks ls ms : List Kind) :
    (call name ks ls ms).filterMap Kind.text? =
      ks.filterMap Kind.text? ++ ls.filterMap Kind.text? ++ ms.filterMap Kind.text? := by
  simp [call, List.filterMap_cons, Kind.text?]

/-- The literals of a derivation are those that the expression is written with. -/
theorem Grammar.hereditary_texts :
    Hereditary (fun ks e => ks.filterMap Kind.text? = e.kinds.filterMap Kind.text?)
      (fun ks e => ks.filterMap Kind.text? = e.kinds.filterMap Kind.text?)
      (fun ks t => ks.filterMap Kind.text? = t.kinds.filterMap Kind.text?) where
  text _ := rfl
  bool _ := rfl
  var _ := rfl
  group ks e h := by rwa [filterMap_text?_group]
  ifCall name ks ls ms t yes no ht hyes hno := by
    rw [kinds, filterMap_text?_call, filterMap_text?_call, ht, hyes, hno]
  replaceCall name ks ls ms v s r hv hs hr := by
    rw [kinds, filterMap_text?_call, filterMap_text?_call, hv, hs, hr]
  single _ _ := id
  run ks es hrun _ := by
    rw [kinds, kindsOfParts_eq, filterMap_intercalate rfl, hrun.filterMap_eq rfl, List.flatMap_map]
    simp only [filterMap_text?_kindsInside]
  literal _ := rfl
  is ks ls l r _ _ _ hl hr := by
    rw [Test.kinds_is, List.filterMap_append, List.filterMap_append, List.filterMap_cons_none rfl,
      List.filterMap_cons_none rfl, filterMap_text?_kindsInside, filterMap_text?_kindsInside, hl,
      hr]

/-! ## Canonical text -/

/-- A path is the path that its text stands for when its steps are. -/
theorem eq_ofText_iff {p : Path} :
    p = Path.ofText p.raw ↔ p.segments = (Path.ofText p.raw).segments := by
  constructor
  · intro h
    rw [← h]
  · intro h
    cases p
    simp_all [Path.ofText]

theorem Restorable.derivable {e : Expr} (h : Restorable e) : ∀ n ∈ e.nodes, n.Derivable := by
  intro n hn
  cases n with
  | concat es => exact h.joined es hn
  | var p => exact eq_ofText_iff.mpr (h.path p hn).2
  | ifElse t yes no =>
      cases t with
      | literal b => trivial
      | is l r => exact h.sides l r yes no hn
  | text | bool | replaceAll => trivial

theorem ofTokens_canonical {e : Expr} (h : Restorable e) :
    ofTokens e.canonical (lex e.canonical).tokens = .ok e := by
  have hkinds := (lex_canonical (fun p hp => (h.path p hp).1) h.text).1
  refine run_whole_expression_eq_ok.mpr ?_
  rw [hkinds]
  refine ⟨⟨0, ?_⟩, (shallow_kinds e 64).mpr h.nesting⟩
  rw [List.replicate_zero, List.append_nil]
  exact (kinds_derive h.derivable).1

/-- An expression that is derived from its own kinds has no misplaced side. -/
theorem sides_of_derived {e : Expr} {n : Nat}
    (h : Expression (e.kinds ++ List.replicate n .rightParen) e) {l r yes no : Expr}
    (hnode : .ifElse (.is l r) yes no ∈ e.nodes) :
    l.isBool = false ∧ l.isIf = false ∧ r.isIf = false := by
  have hopened := h.induct hereditary_opened
  have hclosing : (List.replicate n Kind.rightParen).count .leftParen = 0 := by
    rw [List.count_eq_zero]
    intro hmem
    exact absurd (List.eq_of_mem_replicate hmem) (by simp)
  rw [opened, List.count_append, hclosing] at hopened
  have hsum : (e.nodes.map misplaced).sum = 0 := by omega
  have hmisplaced := List.sum_eq_zero_iff_forall_eq_nat.mp hsum _ (List.mem_map_of_mem hnode)
  simp only [misplaced, Test.misplaced] at hmisplaced
  refine ⟨?_, ?_, ?_⟩ <;> rw [← Bool.toNat_eq_zero] <;> omega

theorem restorable_of_ofTokens {e : Expr}
    (h : ofTokens e.canonical (lex e.canonical).tokens = .ok e) : Restorable e := by
  obtain ⟨⟨n, hderived⟩, hshallow⟩ := run_whole_expression_eq_ok.mp h
  have hstated := hderived.induct hereditary_stated
  have hname : ∀ p, .var p ∈ e.nodes → IsName p.raw := by
    intro p hnode
    rcases List.mem_append.mp (hstated _ hnode).2 with hmem | hmem
    · exact isName_of_mem_lex hmem
    · simp at hmem
  -- closing parentheses hold no literals, so the literals are read unchanged
  have htexts : (kindsOf (cut nextPiece (e.kinds.flatMap writing.written))).filterMap
      writing.text? = e.kinds.filterMap writing.text? := by
    rw [← toList_canonical, ← kindsAhead_lex]
    have htexts := hderived.induct hereditary_texts
    rwa [List.filterMap_append, List.filterMap_replicate_of_none rfl, List.append_nil] at htexts
  have hdoublable := writing.doublable_of_texts_eq (apart_kinds e) (allowed_kinds hname) htexts
  have htext : ∀ s, .text s ∈ e.nodes → Doublable '\'' s.toList := fun s hnode =>
    hdoublable _ (leaf_mem_kinds hnode rfl) s rfl
  have hkinds := (lex_canonical hname htext).1
  rw [hkinds] at hshallow hderived
  exact {
    joined := fun es hnode => hstated _ hnode
    path := fun p hnode => ⟨hname p hnode, eq_ofText_iff.mp (hstated _ hnode).1⟩
    text := htext
    sides := fun l r yes no => sides_of_derived hderived
    nesting := (shallow_kinds e 64).mp hshallow }

/-- The canonical text of an expression is read as the expression exactly when
the expression is restorable, and then nothing in it is out of place. -/
theorem parseExpr_canonical_iff (e : Expr) (strict : Bool) :
    ((∃ as, parseExpr e.canonical strict = .ok ⟨e, as⟩) ↔ Restorable e) ∧
      (parseExpr e.canonical strict = .ok ⟨e, []⟩ ↔ Restorable e) := by
  have hread : Restorable e → parseExpr e.canonical strict = .ok ⟨e, []⟩ := fun h =>
    parseWith_eq_ok.mpr ⟨ofTokens_canonical h,
      (lex_canonical (fun p hp => (h.path p hp).1) h.text).2.symm, fun _ => rfl⟩
  have hrestorable : ∀ as, parseExpr e.canonical strict = .ok ⟨e, as⟩ → Restorable e :=
    fun as h => restorable_of_ofTokens (parseWith_eq_ok.mp h).1
  exact ⟨⟨fun ⟨as, h⟩ => hrestorable as h, fun h => ⟨[], hread h⟩⟩, hrestorable [], hread⟩

-- `if((true) is 'x', 'y', 'z')` is read, but written without the parentheses
example : ¬ Restorable (.ifElse (.is (.bool true) (.text "x")) (.text "y") (.text "z")) := by
  intro h
  simpa [isBool] using (h.sides _ _ _ _ List.mem_cons_self).1

end Expr

end FormLogic
