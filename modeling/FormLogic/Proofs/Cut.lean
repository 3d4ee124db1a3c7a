import FormLogic.Proofs.Lexeme

/-!
# FormLogic.Proofs.Cut

Where the pieces of a source end. A piece takes up the front of what is left,
and it does not depend on the text behind it as long as that text starts with
the same character, with a blank or with a closing parenthesis
(`PieceStarts.steady`). `LawfulCut next` collects what the pieces of a language
have in common, and the laws of cutting follow by `cut_induction`:

* `flatMap_text_cut` — the pieces together are the source;
* `eq_nil_of_isOpen` — only the last piece can lack its closing mark;
* `cut_append_of_closed` — texts that are put together are cut one by one.
-/

namespace FormLogic

open Text

section
variable {κ : Type}

/-! ## What is missing and what is skipped -/

/-- Whether an anomaly is a closing mark that is missing. -/
def AnomalyKind.isOpen : AnomalyKind → Bool
  | .unterminatedString | .unterminatedVariable => true
  | .unknownWord _ | .unexpectedCharacter _ => false

/-- Whether a reading lacks its closing mark. -/
def Reading.isOpen : Reading κ → Bool
  | .openToken .. => true
  | _ => false

/-! ## Where a piece ends -/

/-- The text `t'` starts as `t` does, with a blank or with a closing
parenthesis. -/
def Follows (t t' : List Char) : Prop := ∀ d ∈ t'.head?, t.head? = some d ∨ d = ' ' ∨ d = ')'

/-- The piece in front of a text that starts with `c` is `c` with `s`, and the
text `t` stands behind it. -/
structure PieceStarts (piece : List Char → Piece κ) (c : Char) (s t : List Char) : Prop where
  text : (piece (s ++ t)).text = c :: s
  end_of_open : (piece (s ++ t)).reading.isOpen = true → t = []
  steady : (piece (s ++ t)).reading.isOpen = false → ∀ t', Follows t t' →
    piece (s ++ t') = piece (s ++ t)

/-- The pieces that start with `c` take up the front of a text and look no
further. -/
def Steady (c : Char) (piece : List Char → Piece κ) : Prop :=
  ∀ rest, ∃ s t, rest = s ++ t ∧ PieceStarts piece c s t

theorem Follows.refl (t : List Char) : Follows t t := fun _ hd => .inl hd

/-- A piece that is the same in front of every text that follows. -/
theorem pieceStarts_of_eq {piece : List Char → Piece κ} {c : Char} {s t : List Char}
    {reading : Reading κ} (h : ∀ t', Follows t t' → piece (s ++ t') = ⟨c :: s, reading⟩)
    (hreading : reading.isOpen = false) : PieceStarts piece c s t where
  text := by rw [h t (.refl t)]
  end_of_open hopen := by
    rw [h t (.refl t), hreading] at hopen
    contradiction
  steady _ t' ht' := by rw [h t' ht', h t (.refl t)]

theorem steady_charPiece {c : Char} {reading : Reading κ} (h : reading.isOpen = false) :
    Steady c fun _ => charPiece c reading := fun rest =>
  ⟨[], rest, rfl, pieceStarts_of_eq (fun _ _ => rfl) h⟩

theorem steady_variablePiece {kind : String → κ} : Steady '{' (variablePiece kind) := by
  intro rest
  by_cases hmem : '}' ∈ rest
  · obtain ⟨inside, t, rfl, hinside⟩ := List.eq_append_cons_of_mem hmem
    exact ⟨inside ++ ['}'], t, by simp,
      pieceStarts_of_eq (fun _ _ => variablePiece_of_closed hinside) rfl⟩
  · have hinside : rest.takeWhile (· != '}') = rest :=
      List.takeWhile_eq_self_iff.mpr fun c hc => by
        simpa using fun he : c = '}' => hmem (he ▸ hc)
    refine ⟨rest, [], (List.append_nil rest).symm, ?_, fun _ => rfl, ?_⟩
    · simp [variablePiece, hmem, hinside]
    · simp [variablePiece, hmem, Reading.isOpen]

theorem steady_literalPiece {kind : String → κ} {q : Char} (hblank : q ≠ ' ') (hparen : q ≠ ')') :
    Steady q (literalPiece kind q) := by
  intro rest
  obtain ⟨t, hrest, hopen, hclosed⟩ := readLiteral_source (q := q) rest
  have hreading : (literalPiece kind q rest).reading.isOpen = !(readLiteral q rest).closed := by
    cases h : (readLiteral q rest).closed <;> simp [literalPiece, h, Reading.isOpen]
  refine ⟨(readLiteral q rest).source, t, hrest, ?_⟩
  refine ⟨by rw [← hrest]; rfl, fun h => hopen ?_, fun h t' ht' => ?_⟩
  · rw [← hrest] at h
    simpa [hreading] using h
  · rw [← hrest] at h ⊢
    obtain ⟨ht, hread⟩ := hclosed (by simpa [hreading] using h)
    have hquote : t'.head? ≠ some q := by
      intro hq
      rcases ht' q hq with h | h | h
      · exact ht h
      · exact hblank h
      · exact hparen h
    rw [literalPiece, hread t' hquote, literalPiece]

theorem steady_wordPiece {p : Char → Bool} {read : List Char → Reading κ} {c : Char}
    (hread : ∀ word, (read word).isOpen = false) (hblank : p ' ' = false) (hparen : p ')' = false) :
    Steady c (wordPiece p read c) := by
  intro rest
  have hword : ∀ d ∈ rest.takeWhile p, p d = true := fun d => List.mem_takeWhile_imp
  have hend : ∀ d ∈ (rest.dropWhile p).head?, p d = false := fun d hd => by
    have hhead := List.head?_dropWhile_not p rest
    rwa [Option.mem_def.mp hd] at hhead
  refine ⟨rest.takeWhile p, rest.dropWhile p, List.takeWhile_append_dropWhile.symm,
    pieceStarts_of_eq (fun t' ht' => ?_) (hread (c :: rest.takeWhile p))⟩
  refine wordPiece_eq hword fun d hd => ?_
  rcases ht' d hd with h | rfl | rfl
  · exact hend d h
  · exact hblank
  · exact hparen

/-! ## Laws of cutting -/

/-- A piece is what its reading says: blanks hold blank characters only, a token
without its closing mark misses one, and what is skipped misses none. -/
def Piece.Sound (piece : Piece κ) : Prop :=
  match piece.reading with
  | .blank => ∀ c ∈ piece.text, isBlank c = true
  | .token _ => True
  | .openToken _ missing => missing.isOpen = true
  | .skipped why => why.isOpen = false

theorem sound_variablePiece {kind : String → κ} {rest : List Char} :
    (variablePiece kind rest).Sound := by
  unfold variablePiece
  split
  · trivial
  · rfl

theorem sound_literalPiece {kind : String → κ} {q : Char} {rest : List Char} :
    (literalPiece kind q rest).Sound := by
  cases h : (readLiteral q rest).closed <;> simp [Piece.Sound, literalPiece, h, AnomalyKind.isOpen]

theorem variablePiece_ne_skipped {kind : String → κ} {rest : List Char} (why : AnomalyKind) :
    (variablePiece kind rest).reading ≠ .skipped why := by
  unfold variablePiece
  split <;> simp

theorem literalPiece_ne_skipped {kind : String → κ} {q : Char} {rest : List Char}
    (why : AnomalyKind) : (literalPiece kind q rest).reading ≠ .skipped why := by
  unfold literalPiece
  dsimp only
  split <;> simp

/-- What the pieces of a language have in common. -/
structure LawfulCut [TokenKind κ] (next : Char → List Char → Piece κ) : Prop where
  steady (c : Char) : Steady c (next c)
  sound (c : Char) (rest : List Char) : (next c rest).Sound
  space (rest : List Char) : next ' ' rest = charPiece ' ' .blank
  isEof (c : Char) (rest : List Char) (k : κ) :
    (next c rest).reading.token? = some k → TokenKind.isEof k = false

variable [TokenKind κ] {next : Char → List Char → Piece κ}

/-- Cutting goes from the front, one piece at a time. -/
theorem cut_induction (h : LawfulCut next) {motive : List Char → List (Piece κ) → Prop}
    (nil : motive [] [])
    (cons : ∀ c s t, PieceStarts (next c) c s t → motive t (cut next t) →
      motive (c :: s ++ t) (next c (s ++ t) :: cut next t)) (source : List Char) :
    motive source (cut next source) := by
  induction hn : source.length using Nat.strong_induction_on generalizing source with
  | _ n ih =>
      cases source with
      | nil => simpa using nil
      | cons c rest =>
          obtain ⟨s, t, rfl, hstarts⟩ := h.steady c rest
          rw [← List.cons_append, cut_append hstarts.text]
          refine cons c s t hstarts (ih t.length ?_ t rfl)
          simp only [List.length_cons, List.length_append] at hn
          omega

/-- The pieces together are the source. -/
theorem flatMap_text_cut (h : LawfulCut next) (source : List Char) :
    (cut next source).flatMap (·.text) = source := by
  refine cut_induction h (motive := fun source pieces => pieces.flatMap (·.text) = source)
    rfl ?_ source
  intro c s t hstarts ih
  rw [List.flatMap_cons, hstarts.text, ih]

theorem sound_of_mem_cut (h : LawfulCut next) {source : List Char} {piece : Piece κ}
    (hmem : piece ∈ cut next source) : piece.Sound := by
  obtain ⟨c, rest, rfl⟩ := exists_of_mem_cut hmem
  exact h.sound c rest

theorem text_ne_nil_of_mem_cut (h : LawfulCut next) {source : List Char} {piece : Piece κ}
    (hmem : piece ∈ cut next source) : piece.text ≠ [] := by
  obtain ⟨c, rest, rfl⟩ := exists_of_mem_cut hmem
  obtain ⟨s, t, rfl, hstarts⟩ := h.steady c rest
  simp [hstarts.text]

/-- When no anomaly is a missing closing mark, no piece lacks one. -/
theorem isOpen_of_mem_cut (h : LawfulCut next) {source : List Char}
    (hclosed : ∀ a ∈ (lexWith next source).anomalies, a.kind.isOpen = false) {piece : Piece κ}
    (hmem : piece ∈ cut next source) : piece.reading.isOpen = false := by
  have hsound := sound_of_mem_cut h hmem
  cases hr : piece.reading with
  | blank | token | skipped => rfl
  | openToken k missing =>
      have hfault : missing ∈ (lexWith next source).anomalies.map (·.kind) := by
        rw [lexWith, map_kind_anomaliesOf]
        exact List.mem_filterMap.mpr ⟨piece, hmem, by rw [hr]; rfl⟩
      obtain ⟨a, ha, rfl⟩ := List.mem_map.mp hfault
      have hopen : a.kind.isOpen = true := by simpa [Piece.Sound, hr] using hsound
      rw [hclosed a ha] at hopen
      contradiction

/-- Nothing stands behind a piece that lacks its closing mark. -/
theorem eq_nil_of_isOpen (h : LawfulCut next) {source : List Char} {xs ys : List (Piece κ)}
    {x : Piece κ} (hcut : cut next source = xs ++ x :: ys) (hopen : x.reading.isOpen = true) :
    ys = [] := by
  refine cut_induction h (motive := fun _ pieces => ∀ xs, pieces = xs ++ x :: ys → ys = [])
    (by simp) ?_ source xs hcut
  intro c s t hstarts ih xs hpieces
  cases xs with
  | nil =>
      obtain ⟨rfl, rfl⟩ := List.cons.inj hpieces
      rw [hstarts.end_of_open hopen, cut_nil]
  | cons y xs => exact ih xs (List.cons.inj hpieces).2

theorem Follows.append {t : List Char} (h : Follows [] t) (s : List Char) :
    Follows s (s ++ t) := by
  cases s with
  | nil => exact h
  | cons c s => exact fun _ hd => .inl hd

/-- Behind a text that lacks no closing mark, a text that keeps apart from it is
cut as it is alone. -/
theorem cut_append_of_closed (h : LawfulCut next) {s t : List Char}
    (hclosed : ∀ piece ∈ cut next s, piece.reading.isOpen = false) (ht : Follows [] t) :
    cut next (s ++ t) = cut next s ++ cut next t := by
  revert hclosed
  refine cut_induction h (motive := fun s pieces =>
    (∀ piece ∈ pieces, piece.reading.isOpen = false) → cut next (s ++ t) = pieces ++ cut next t)
    (by simp) ?_ s
  intro c s u hstarts ih hclosed
  obtain ⟨hhead, htail⟩ := List.forall_mem_cons.mp hclosed
  have hnext := hstarts.steady hhead (u ++ t) (ht.append u)
  rw [List.append_assoc, cut_append (by rw [hnext, hstarts.text]), hnext, ih htail,
    List.cons_append]

end

end FormLogic
