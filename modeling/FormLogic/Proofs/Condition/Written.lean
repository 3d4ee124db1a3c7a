import FormLogic.Proofs.Condition.Tree
import FormLogic.Proofs.Condition.Grammar
import FormLogic.Proofs.Cut

/-!
# FormLogic.Proofs.Condition.Written

The canonical text of a condition writes out its kinds (`written_kinds`), and
kinds that do not run into one another are lexed as they are written
(`writing`).
-/

namespace FormLogic.Condition

open Text

/-! ## Canonical text of kinds -/

/-- The text of a kind in canonical text, with the blanks around it. -/
def Kind.written : Kind → List Char
  | .var name => '{' :: (name.toList ++ ['}'])
  | .text s => quoted s.toList
  | .op word => ' ' :: word.toList ++ [' ']
  | .and => " and ".toList
  | .or => " or ".toList
  | .leftParen => ['(']
  | .rightParen => [')']
  | .eof => []

theorem renderList_eq (joint : List Char) (cs : List Condition) :
    renderList joint cs = joint.intercalate (cs.map render) := by
  induction cs with
  | nil => simp [renderList]
  | cons c cs ih =>
      cases cs with
      | nil => simp [renderList]
      | cons d cs => simp only [renderList, ih, List.map_cons, List.intercalate_cons_cons]

theorem written_connected {connective : Kind} {cs : List Condition}
    (h : ∀ c ∈ cs, c.kinds.flatMap Kind.written = c.render) :
    (connected connective (cs.map kinds)).flatMap Kind.written =
      '(' :: renderList connective.written cs ++ [')'] := by
  have hcs : (cs.map kinds).map (fun ks => ks.flatMap Kind.written) = cs.map render := by
    rw [List.map_map]
    exact List.map_congr_left h
  simp [connected, flatMap_intercalate, hcs, renderList_eq, Kind.written]

/-- The canonical text of a condition writes out its kinds. -/
theorem written_kinds (c : Condition) : c.kinds.flatMap Kind.written = c.render := by
  induction c with
  | compare name op expected => simp [kinds, Kind.written, render]
  | and cs ih => rw [kinds, kindsOfList_eq, written_connected ih, render, Kind.written]
  | or cs ih => rw [kinds, kindsOfList_eq, written_connected ih, render, Kind.written]

/-! ## Lexing kinds -/

/-- The value of a literal. -/
def Kind.text? : Kind → Option String
  | .text s => some s
  | _ => none

/-- Whether a kind is written without blanks or parentheses at its ends. -/
def Kind.Solid : Kind → Prop
  | .var _ | .text _ => True
  | _ => False

/-- Whether a kind can be written, the value of a literal aside. -/
def Kind.Allowed : Kind → Prop
  | .var name => IsName name
  | .op word => ∃ op : CompareOp, op.word = word
  | .eof => False
  | _ => True

theorem token?_readWord {word : List Char} {k : Kind} (h : (readWord word).token? = some k) :
    k = .and ∨ k = .or ∨ ∃ word, k = .op word := by
  unfold readWord at h
  dsimp only at h
  split_ifs at h
  · exact .inl (Option.some.inj h).symm
  · exact .inr (.inl (Option.some.inj h).symm)
  · exact .inr (.inr ⟨_, (Option.some.inj h).symm⟩)
  · simp [Reading.token?] at h

/-- The end of file is not read off a text, and names are read without the
blanks around them. -/
theorem token?_nextPiece {c : Char} {rest : List Char} {k : Kind}
    (h : (nextPiece c rest).reading.token? = some k) :
    k ≠ .eof ∧ ∀ name, k = .var name → IsName name := by
  unfold nextPiece at h
  split_ifs at h
  · simp [charPiece, Reading.token?] at h
  · obtain ⟨name, rfl, hname⟩ := isName_of_variablePiece h
    simpa using hname
  · rw [token?_literalPiece] at h
    obtain rfl := Option.some.inj h
    simp
  · obtain rfl := Option.some.inj h
    simp
  · obtain rfl := Option.some.inj h
    simp
  · rcases token?_readWord h with rfl | rfl | ⟨word, rfl⟩ <;> simp
  · simp [charPiece, Reading.token?] at h

theorem nextPiece_quote (rest : List Char) :
    nextPiece '\'' rest = literalPiece Kind.text '\'' rest := rfl

/-- A word that compares is read in front of a blank. -/
theorem nextPiece_word (op : CompareOp) (rest : List Char) :
    ∃ c s, op.word.toList = c :: s ∧
      nextPiece c (s ++ ' ' :: rest) = ⟨c :: s, .token (.op op.word)⟩ := by
  cases op <;> exact ⟨_, _, rfl, rfl⟩

/-- A kind that is not solid starts with a blank or a parenthesis. -/
theorem head?_written_ne {ks : List Kind} (h : ∀ l ∈ ks.head?, l.Allowed ∧ ¬ l.Solid) :
    (ks.flatMap Kind.written).head? ≠ some '\'' := by
  cases ks with
  | nil => simp
  | cons k ks =>
      obtain ⟨hallowed, hsolid⟩ := h k rfl
      cases k with
      | var | text => simp [Kind.Solid] at hsolid
      | eof => simp [Kind.Allowed] at hallowed
      | op | and | or | leftParen | rightParen => simp [Kind.written]

/-- How the kinds of a condition are written. -/
def writing : Writing nextPiece where
  written := Kind.written
  text? := Kind.text?
  Solid := Kind.Solid
  Allowed := Kind.Allowed
  spells k ls hallowed htext hrest := by
    have hblank : ∀ rest, nextPiece ' ' rest = ⟨[' '], .blank⟩ := fun _ => rfl
    cases k with
    | var name => exact spells_variable (fun _ => rfl) hallowed
    | text x =>
        exact spells_literal nextPiece_quote (htext x rfl) (head?_written_ne fun l hl =>
          ⟨(hrest l hl).1, fun hsolid => (hrest l hl).2 ⟨trivial, hsolid⟩⟩)
    | op word =>
        obtain ⟨op, rfl⟩ := hallowed
        obtain ⟨c, s, hword, hnext⟩ := nextPiece_word op (ls.flatMap Kind.written)
        rw [Kind.written, hword]
        exact spells_padded hblank hnext
    | and => exact @spells_padded _ _ ['n', 'd'] _ 'a' .and hblank rfl
    | or => exact @spells_padded _ _ ['r'] _ 'o' .or hblank rfl
    | leftParen => exact spells_token rfl
    | rightParen => exact spells_token rfl
    | eof => contradiction
  misspells k rest x hx hbad := by
    cases k with
    | text y =>
        obtain rfl := Option.some.inj hx
        obtain ⟨z, more, hne, hcut⟩ := exists_ne_of_not_doublable nextPiece_quote hbad rest
        exact ⟨_, z, more, rfl, hne, hcut⟩
    | _ => simp [Kind.text?] at hx

/-! ## Kinds that are written -/

theorem apart_connected {connective : Kind} {kss : List (List Kind)}
    (hc : ¬ connective.Solid) (h : ∀ ks ∈ kss, writing.Apart ks) :
    writing.Apart (connected connective kss) := by
  have hnil : writing.Apart [] := List.isChain_nil
  have hinner := forall_intercalate hnil (fun _ _ => Writing.Apart.append_cons hc) h
  have hopened := Writing.Apart.append_cons (k := .leftParen) id hnil hinner
  exact hopened.append_cons id hnil

/-- The kinds of a condition do not run into one another. -/
theorem apart_kinds (c : Condition) : writing.Apart c.kinds := by
  induction c with
  | compare name op expected =>
      simp [kinds, Writing.Apart, writing, Kind.Solid]
  | and cs ih | or cs ih =>
      rw [kinds, kindsOfList_eq]
      exact apart_connected id (List.forall_mem_map.mpr ih)

/-- The kinds of a condition can be written when its names can. -/
theorem allowed_kinds {c : Condition}
    (h : ∀ name op expected, .compare name op expected ∈ c.nodes → IsName name) :
    ∀ k ∈ c.kinds, writing.Allowed k := by
  intro k hk
  rcases mem_kinds hk with hk | ⟨name, op, expected, hnode, hk⟩
  · simp only [List.mem_cons, List.not_mem_nil, or_false] at hk
    rcases hk with rfl | rfl | rfl | rfl <;> trivial
  · simp only [List.mem_cons, List.not_mem_nil, or_false] at hk
    rcases hk with rfl | rfl | rfl
    · exact h _ _ _ hnode
    · exact ⟨op, rfl⟩
    · trivial

/-- The literals among the kinds of a condition are the texts of its
comparisons. -/
theorem texts_kinds {c : Condition}
    (h : ∀ name op expected, .compare name op expected ∈ c.nodes →
      Doublable '\'' expected.toList) :
    ∀ k ∈ c.kinds, ∀ x ∈ writing.text? k, Doublable '\'' x.toList := by
  intro k hk x hx
  rcases mem_kinds hk with hk | ⟨name, op, expected, hnode, hk⟩
  · simp only [List.mem_cons, List.not_mem_nil, or_false] at hk
    rcases hk with rfl | rfl | rfl | rfl <;> contradiction
  · simp only [List.mem_cons, List.not_mem_nil, or_false] at hk
    rcases hk with rfl | rfl | rfl
    · contradiction
    · contradiction
    · obtain rfl := Option.some.inj hx
      exact h _ _ _ hnode

/-! ## Lexed kinds -/

theorem isEof_eq_false {c : Char} {rest : List Char} {k : Kind}
    (h : (nextPiece c rest).reading.token? = some k) : TokenKind.isEof k = false := by
  simpa [TokenKind.isEof] using (token?_nextPiece h).1

theorem isOpen_readWord (word : List Char) : (readWord word).isOpen = false := by
  unfold readWord
  dsimp only
  split_ifs <;> rfl

theorem steady_nextPiece (c : Char) : Steady c (nextPiece c) := by
  unfold nextPiece
  split_ifs with hblank hvariable hquote hleft hright hword
  · exact steady_charPiece rfl
  · obtain rfl := hvariable
    exact steady_variablePiece
  · obtain rfl := hquote
    exact steady_literalPiece (by decide) (by decide)
  · exact steady_charPiece rfl
  · exact steady_charPiece rfl
  · exact steady_wordPiece isOpen_readWord rfl rfl
  · exact steady_charPiece rfl

theorem sound_nextPiece (c : Char) (rest : List Char) : (nextPiece c rest).Sound := by
  unfold nextPiece
  split_ifs with hblank hvariable hquote hleft hright hword
  · simpa [Piece.Sound, charPiece] using hblank
  · exact sound_variablePiece
  · exact sound_literalPiece
  · trivial
  · trivial
  · unfold Piece.Sound wordPiece readWord
    dsimp only
    split_ifs <;> trivial
  · rfl

/-- Conditions are cut into pieces that look no further than they reach. -/
theorem lawfulCut : LawfulCut nextPiece where
  steady := steady_nextPiece
  sound := sound_nextPiece
  space _ := rfl
  isEof _ _ _ := isEof_eq_false

theorem kindsAhead_lex (source : String) :
    kindsAhead (lex source).tokens = kindsOf (cut nextPiece source.toList) :=
  kindsAhead_lexWith fun _ _ _ => isEof_eq_false

/-- The names of a condition that is read from a text are read back. -/
theorem isName_of_mem_lex {source name : String}
    (h : .var name ∈ kindsAhead (lex source).tokens) : IsName name := by
  rw [kindsAhead_lex] at h
  obtain ⟨c, rest, htoken⟩ := exists_of_mem_kindsOf h
  exact (token?_nextPiece htoken).2 name rfl

theorem toList_canonical (c : Condition) :
    c.canonical.toList = c.kinds.flatMap writing.written := by
  rw [canonical, String.toList_ofList, ← written_kinds]
  rfl

/-- A condition with names and texts that are read back is lexed as its kinds. -/
theorem lex_canonical {c : Condition}
    (hname : ∀ name op expected, .compare name op expected ∈ c.nodes → IsName name)
    (hexpected : ∀ name op expected, .compare name op expected ∈ c.nodes →
      Doublable '\'' expected.toList) :
    kindsAhead (lex c.canonical).tokens = c.kinds ∧ (lex c.canonical).anomalies = [] := by
  unfold lex
  rw [toList_canonical]
  exact writing.lexWith_flatMap (apart_kinds c) (allowed_kinds hname) (texts_kinds hexpected)
    fun _ _ _ => isEof_eq_false

end FormLogic.Condition
