import FormLogic.Proofs.Expr.Tree
import FormLogic.Proofs.Cut

/-!
# FormLogic.Proofs.Expr.Written

The canonical text of a value expression writes out its kinds (`written_kinds`),
and kinds that do not run into one another are lexed as they are written
(`writing`).
-/

namespace FormLogic

open Text

namespace Expr

/-! ## Canonical text of kinds -/

/-- The text of a kind in canonical text, with the blanks around it. -/
def Kind.written : Kind → List Char
  | .var path => '{' :: (path.toList ++ ['}'])
  | .text s => quoted s.toList
  | .bool b => (toString b).toList
  | .ident name => name.toList
  | .is => " is ".toList
  | .comma => ", ".toList
  | .plus => " + ".toList
  | .leftParen => ['(']
  | .rightParen => [')']
  | .eof => []

theorem render_var (p : Path) : (var p).render = p.text.toList := rfl

theorem render_ifElse (t : Test) (yes no : Expr) :
    (ifElse t yes no).render =
      "if(".toList ++ t.render ++ ", ".toList ++ yes.render ++ ", ".toList ++ no.render ++ [')'] :=
  rfl

theorem render_replaceAll (v s r : Expr) :
    (replaceAll v s r).render =
      "replaceAll(".toList ++ v.render ++ ", ".toList ++ s.render ++ ", ".toList ++ r.render ++
        [')'] :=
  rfl

theorem render_test_is (l r : Expr) :
    (Test.is l r).render = l.operandText l.render ++ " is ".toList ++ r.operandText r.render :=
  rfl

theorem renderParts_cons_cons (e f : Expr) (es : List Expr) :
    renderParts (e :: f :: es) =
      e.operandText e.render ++ " + ".toList ++ renderParts (f :: es) :=
  rfl

theorem renderParts_eq (es : List Expr) :
    renderParts es = " + ".toList.intercalate (es.map fun e => e.operandText e.render) := by
  induction es with
  | nil => rw [List.map_nil, List.intercalate_nil]; rfl
  | cons e es ih =>
      cases es with
      | nil => rw [List.map_singleton, List.intercalate_singleton]; rfl
      | cons f es =>
          simp only [renderParts_cons_cons, ih, List.map_cons, List.intercalate_cons_cons]

theorem written_kindsInside {e : Expr} (h : e.kinds.flatMap Kind.written = e.render) :
    e.kindsInside.flatMap Kind.written = e.operandText e.render := by
  unfold kindsInside operandKinds operandText
  split
  · simp [h, Kind.written]
  · exact h

/-- The canonical text of an expression writes out its kinds. -/
theorem written_kinds (e : Expr) : e.kinds.flatMap Kind.written = e.render := by
  induction e with
  | text | bool =>
      rw [kinds, List.flatMap_singleton, Kind.written]
      rfl
  | var p =>
      rw [kinds, List.flatMap_singleton, Kind.written, render_var, Path.toList_text,
        List.cons_append]
  | concat es ih =>
      have hparts : (es.map kindsInside).map (fun ks => ks.flatMap Kind.written) =
          es.map fun e => e.operandText e.render := by
        rw [List.map_map]
        exact List.map_congr_left fun e he => written_kindsInside (ih e he)
      rw [kinds, kindsOfParts_eq, flatMap_intercalate, hparts]
      exact (renderParts_eq es).symm
  | ifElse t yes no iht ihyes ihno =>
      have ht : t.kinds.flatMap Kind.written = t.render := by
        cases t with
        | literal b =>
            rw [Test.kinds, List.flatMap_singleton, Kind.written]
            rfl
        | is l r =>
            have hl := written_kindsInside (iht l (by simp [Test.sides]))
            have hr := written_kindsInside (iht r (by simp [Test.sides]))
            simp [Test.kinds_is, Kind.written, render_test_is, hl, hr]
      simp [kinds, Grammar.call, Kind.written, render_ifElse, ht, ihyes, ihno]
  | replaceAll v s r ihv ihs ihr =>
      simp [kinds, Grammar.call, Kind.written, render_replaceAll, ihv, ihs, ihr]

/-! ## Lexing kinds -/

/-- The value of a literal. -/
def Kind.text? : Kind → Option String
  | .text s => some s
  | _ => none

/-- Whether a kind is written without blanks or parentheses at its ends. -/
def Kind.Solid : Kind → Prop
  | .var _ | .text _ | .bool _ | .ident _ => True
  | _ => False

/-- Whether a kind can be written, the value of a literal aside. -/
def Kind.Allowed : Kind → Prop
  | .var path => IsName path
  | .ident name => name ∈ ["if", "replaceAll"]
  | .eof => False
  | _ => True

theorem token?_readName {name : List Char} {k : Kind} (h : (readName name).token? = some k) :
    (∃ b, k = .bool b) ∨ k = .is ∨ ∃ name, k = .ident name := by
  unfold readName at h
  dsimp only at h
  split_ifs at h
  · exact .inl ⟨_, (Option.some.inj h).symm⟩
  · exact .inl ⟨_, (Option.some.inj h).symm⟩
  · exact .inr (.inl (Option.some.inj h).symm)
  · exact .inr (.inr ⟨_, (Option.some.inj h).symm⟩)

/-- The end of file is not read off a text, and paths are read without the
blanks around them. -/
theorem token?_nextPiece {c : Char} {rest : List Char} {k : Kind}
    (h : (nextPiece c rest).reading.token? = some k) :
    k ≠ .eof ∧ ∀ path, k = .var path → IsName path := by
  unfold nextPiece at h
  split_ifs at h
  · simp [charPiece, Reading.token?] at h
  · obtain ⟨name, rfl, hname⟩ := isName_of_variablePiece h
    simpa using hname
  · rw [token?_literalPiece] at h
    obtain rfl := Option.some.inj h
    simp
  · obtain rfl := Option.some.inj h
    simp
  · obtain rfl := Option.some.inj h
    simp
  · obtain rfl := Option.some.inj h
    simp
  · obtain rfl := Option.some.inj h
    simp
  · rcases token?_readName h with ⟨b, rfl⟩ | rfl | ⟨name, rfl⟩ <;> simp
  · simp [charPiece, Reading.token?] at h

theorem nextPiece_quote (rest : List Char) :
    nextPiece '\'' rest = literalPiece Kind.text '\'' rest := rfl

/-- A kind that is not solid starts with a blank, a comma or a parenthesis. -/
theorem head?_written_mem {ks : List Kind} (h : ∀ l ∈ ks.head?, l.Allowed ∧ ¬ l.Solid) :
    ∀ c ∈ (ks.flatMap Kind.written).head?, c ∈ [' ', ',', '(', ')'] := by
  cases ks with
  | nil => simp
  | cons k ks =>
      obtain ⟨hallowed, hsolid⟩ := h k rfl
      cases k with
      | var | text | bool | ident => simp [Kind.Solid] at hsolid
      | eof => simp [Kind.Allowed] at hallowed
      | is | comma | plus | leftParen | rightParen => simp [Kind.written]

/-- A word is read as a name in front of a blank, a comma or a parenthesis. -/
theorem spells_word {c : Char} {s rest : List Char} {k : Kind}
    (hnext : ∀ rest, nextPiece c rest = wordPiece isNameChar readName c rest)
    (hs : s.all isNameChar = true) (hread : readName (c :: s) = .token k)
    (hrest : ∀ d ∈ rest.head?, d ∈ [' ', ',', '(', ')']) : Spells nextPiece (c :: s) rest [k] := by
  refine spells_token ?_
  rw [hnext, wordPiece_eq (List.all_eq_true.mp hs), hread]
  intro d hd
  have hmark : [' ', ',', '(', ')'].all (fun d => !isNameChar d) = true := by decide
  simpa using List.all_eq_true.mp hmark d (hrest d hd)

/-- How the kinds of an expression are written. -/
def writing : Writing nextPiece where
  written := Kind.written
  text? := Kind.text?
  Solid := Kind.Solid
  Allowed := Kind.Allowed
  spells k ls hallowed htext hrest := by
    have hblank : ∀ rest, nextPiece ' ' rest = ⟨[' '], .blank⟩ := fun _ => rfl
    have hmark : k.Solid → ∀ c ∈ (ls.flatMap Kind.written).head?, c ∈ [' ', ',', '(', ')'] :=
      fun hk => head?_written_mem fun l hl =>
        ⟨(hrest l hl).1, fun hsolid => (hrest l hl).2 ⟨hk, hsolid⟩⟩
    cases k with
    | var path => exact spells_variable (fun _ => rfl) hallowed
    | text x =>
        refine spells_literal nextPiece_quote (htext x rfl) fun hquote => ?_
        simpa using hmark trivial '\'' hquote
    | bool b =>
        cases b with
        | true =>
            exact @spells_word 't' ['r', 'u', 'e'] _ _ (fun _ => rfl) (by decide) rfl
              (hmark trivial)
        | false =>
            exact @spells_word 'f' ['a', 'l', 's', 'e'] _ _ (fun _ => rfl) (by decide) rfl
              (hmark trivial)
    | ident name =>
        simp only [Kind.Allowed, List.mem_cons, List.not_mem_nil, or_false] at hallowed
        rcases hallowed with rfl | rfl
        · exact @spells_word 'i' ['f'] _ _ (fun _ => rfl) (by decide) rfl (hmark trivial)
        · exact @spells_word 'r' "eplaceAll".toList _ _ (fun _ => rfl) (by decide) rfl
            (hmark trivial)
    | is => exact @spells_padded _ _ ['s'] _ 'i' .is hblank rfl
    | plus => exact @spells_padded _ _ [] _ '+' .plus hblank rfl
    | comma =>
        have hcomma : ∀ rest, Spells nextPiece [','] rest [Kind.comma] := fun _ => spells_token rfl
        exact (hcomma _).append (spells_blank (hblank _))
    | leftParen => exact spells_token rfl
    | rightParen => exact spells_token rfl
    | eof => contradiction
  misspells k rest x hx hbad := by
    cases k with
    | text y =>
        obtain rfl := Option.some.inj hx
        obtain ⟨z, more, hne, hcut⟩ := exists_ne_of_not_doublable nextPiece_quote hbad rest
        exact ⟨_, z, more, rfl, hne, hcut⟩
    | _ => simp [Kind.text?] at hx

/-! ## Kinds that are written -/

/-- The kinds of an expression do not run into one another. -/
theorem apart_kinds (e : Expr) : writing.Apart e.kinds := by
  have hnil : writing.Apart [] := List.isChain_nil
  have hone : ∀ k, writing.Apart [k] := fun _ => List.isChain_singleton _
  have hjoin : ∀ ks k ls, ¬ k.Solid → writing.Apart ks → writing.Apart ls →
      writing.Apart (ks ++ k :: ls) := fun _ _ _ hk => Writing.Apart.append_cons hk
  refine kinds_induction hnil (fun _ _ k _ => hone k) (fun b => hone _) ?_ ?_ ?_
  · intro ks k ls hk hks hls
    refine hjoin ks k ls ?_ hks hls
    simp only [List.mem_cons, List.not_mem_nil, or_false] at hk
    rcases hk with rfl | rfl | rfl <;> exact id
  · intro ks hks
    exact hjoin _ _ _ id (hjoin [] _ _ id hnil hks) hnil
  · intro name ks _ hks
    refine List.isChain_cons.mpr ⟨?_, hks⟩
    rintro _ ⟨⟩ h
    exact h.2

/-- The kinds of an expression can be written when its paths can. -/
theorem allowed_kinds {e : Expr} (h : ∀ p, .var p ∈ e.nodes → IsName p.raw) :
    ∀ k ∈ e.kinds, writing.Allowed k := by
  refine forall_kinds ?_ (fun _ => trivial) ?_
  · intro n hn k hk
    cases n with
    | text | bool =>
        obtain rfl := Option.some.inj hk
        trivial
    | var p =>
        obtain rfl := Option.some.inj hk
        exact h p hn
    | concat | ifElse | replaceAll => simp [leaf?] at hk
  · simp [writing, Kind.Allowed]

/-- The literals among the kinds of an expression are its texts. -/
theorem texts_kinds {e : Expr} (h : ∀ s, .text s ∈ e.nodes → Doublable '\'' s.toList) :
    ∀ k ∈ e.kinds, ∀ x ∈ writing.text? k, Doublable '\'' x.toList := by
  refine forall_kinds ?_ (by simp [writing, Kind.text?]) (by simp [writing, Kind.text?])
  intro n hn k hk x hx
  cases n with
  | text s =>
      obtain rfl := Option.some.inj hk
      obtain rfl := Option.some.inj hx
      exact h s hn
  | bool | var =>
      obtain rfl := Option.some.inj hk
      contradiction
  | concat | ifElse | replaceAll => simp [leaf?] at hk

/-! ## Lexed kinds -/

theorem isEof_eq_false {c : Char} {rest : List Char} {k : Kind}
    (h : (nextPiece c rest).reading.token? = some k) : TokenKind.isEof k = false := by
  simpa [TokenKind.isEof] using (token?_nextPiece h).1

theorem isOpen_readName (name : List Char) : (readName name).isOpen = false := by
  unfold readName
  dsimp only
  split_ifs <;> rfl

theorem steady_nextPiece (c : Char) : Steady c (nextPiece c) := by
  unfold nextPiece
  split_ifs with hblank hvariable hquote hcomma hplus hleft hright hword
  · exact steady_charPiece rfl
  · obtain rfl := hvariable
    exact steady_variablePiece
  · rcases hquote with rfl | rfl <;> exact steady_literalPiece (by decide) (by decide)
  · exact steady_charPiece rfl
  · exact steady_charPiece rfl
  · exact steady_charPiece rfl
  · exact steady_charPiece rfl
  · exact steady_wordPiece isOpen_readName rfl rfl
  · exact steady_charPiece rfl

theorem sound_nextPiece (c : Char) (rest : List Char) : (nextPiece c rest).Sound := by
  unfold nextPiece
  split_ifs with hblank hvariable hquote hcomma hplus hleft hright hword
  · simpa [Piece.Sound, charPiece] using hblank
  · exact sound_variablePiece
  · exact sound_literalPiece
  · trivial
  · trivial
  · trivial
  · trivial
  · unfold Piece.Sound wordPiece readName
    dsimp only
    split_ifs <;> trivial
  · rfl

/-- Value expressions are cut into pieces that look no further than they
reach. -/
theorem lawfulCut : LawfulCut nextPiece where
  steady := steady_nextPiece
  sound := sound_nextPiece
  space _ := rfl
  isEof _ _ _ := isEof_eq_false

theorem kindsAhead_lex (source : String) :
    kindsAhead (lex source).tokens = kindsOf (cut nextPiece source.toList) :=
  kindsAhead_lexWith fun _ _ _ => isEof_eq_false

/-- The paths that are read from a text are read back. -/
theorem isName_of_mem_lex {source path : String}
    (h : .var path ∈ kindsAhead (lex source).tokens) : IsName path := by
  rw [kindsAhead_lex] at h
  obtain ⟨c, rest, htoken⟩ := exists_of_mem_kindsOf h
  exact (token?_nextPiece htoken).2 path rfl

theorem toList_canonical (e : Expr) :
    e.canonical.toList = e.kinds.flatMap writing.written := by
  rw [canonical, String.toList_ofList, ← written_kinds]
  rfl

/-- An expression with paths and texts that are read back is lexed as its
kinds. -/
theorem lex_canonical {e : Expr} (hpath : ∀ p, .var p ∈ e.nodes → IsName p.raw)
    (htext : ∀ s, .text s ∈ e.nodes → Doublable '\'' s.toList) :
    kindsAhead (lex e.canonical).tokens = e.kinds ∧ (lex e.canonical).anomalies = [] := by
  unfold lex
  rw [toList_canonical]
  exact writing.lexWith_flatMap (apart_kinds e) (allowed_kinds hpath) (texts_kinds htext)
    fun _ _ _ => isEof_eq_false

end Expr

end FormLogic
