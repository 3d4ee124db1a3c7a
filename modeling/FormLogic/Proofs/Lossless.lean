import FormLogic.Proofs.Condition.Written
import FormLogic.Proofs.Expr.Written
import FormLogic.Proofs.Span
import FormLogic.Proofs.Text.Bytes

/-!
# FormLogic.Proofs.Lossless

Reading a source text as tokens loses nothing and reads nothing twice. Tokens
and what is skipped are stretches of the source without a byte in common, and
what lies between them is blank (`Lexed.Lossless`). All of it is told by the
pieces that the source is cut into: a span in the result is the span of a piece
(`mem_tokensOf`, `mem_skipped_iff`), and a piece that is no token and not skipped
is a blank.
-/

namespace FormLogic

open Text

section
variable {κ : Type} [TokenKind κ]

/-- What was skipped: the anomalies that are no missing closing marks. -/
def Lexed.skipped (l : Lexed κ) : List Anomaly :=
  l.anomalies.filter fun a => !a.kind.isOpen

/-- The spans of the tokens in front of the end of file, and of what was
skipped. -/
def Lexed.ranges (l : Lexed κ) : List Span :=
  l.tokens.dropLast.map (·.span) ++ l.skipped.map (·.span)

/-- A source text that is read without losing anything. -/
structure Lexed.Lossless (source : String) (l : Lexed κ) : Prop where
  /-- The tokens end in an end of file behind the last byte, which is the only one. -/
  ends : ∃ tokens last, l.tokens = tokens ++ [last] ∧ last.kind = TokenKind.eof ∧
    last.span.offset = source.utf8ByteSize ∧ last.span.length = 0 ∧
    ∀ t ∈ tokens, TokenKind.isEof t.kind = false
  stretches : ∀ a ∈ l.ranges, a.IsStretch source.toList
  disjoint : l.ranges.Pairwise Span.Disjoint
  tokens_sorted : l.tokens.Pairwise fun t u => t.span.offset < u.span.offset
  anomalies_sorted : l.anomalies.Pairwise fun a b => a.span.offset < b.span.offset
  /-- Every byte outside of these spans belongs to a blank. -/
  gaps : ∀ before c behind, source.toList = before ++ c :: behind →
    ∀ i, byteLength before ≤ i → i < byteLength before + c.utf8Size →
      (∀ a ∈ l.ranges, ¬ a.Contains i) → isBlank c = true
  /-- A missing closing mark is the last anomaly and the only one of its kind. It
  belongs to the last token, which goes on to the end of the source. -/
  missing : ∀ a ∈ l.anomalies, a.kind.isOpen = true →
    ∃ anomalies t, l.anomalies = anomalies ++ [a] ∧ (∀ b ∈ anomalies, b.kind.isOpen = false) ∧
      l.tokens.dropLast.getLast? = some t ∧ t.span = a.span ∧
      a.span.offset + a.span.length = source.utf8ByteSize

/-! ## Spans of tokens and anomalies -/

omit [TokenKind κ] in
theorem exists_of_mem_tokensOf {pieces : List (Piece κ)} {t : Token κ} (h : t ∈ tokensOf pieces) :
    ∃ r, (r, t.span) ∈ located .start pieces ∧ r.token? = some t.kind := by
  obtain ⟨⟨r, a⟩, hmem, htoken⟩ := List.mem_filterMap.mp h
  obtain ⟨k, hk, rfl⟩ := Option.map_eq_some_iff.mp htoken
  exact ⟨r, hmem, hk⟩

omit [TokenKind κ] in
theorem exists_of_mem_anomaliesOf {pieces : List (Piece κ)} {a : Anomaly}
    (h : a ∈ anomaliesOf pieces) :
    ∃ r, (r, a.span) ∈ located .start pieces ∧ r.anomaly? = some a.kind := by
  obtain ⟨⟨r, span⟩, hmem, hanomaly⟩ := List.mem_filterMap.mp h
  obtain ⟨why, hwhy, rfl⟩ := Option.map_eq_some_iff.mp hanomaly
  exact ⟨r, hmem, hwhy⟩

section
variable {next : Char → List Char → Piece κ} (h : LawfulCut next) (source : List Char)
include h

/-- The reading at a span is the reading of a sound piece. -/
theorem exists_sound_of_mem_located {r : Reading κ} {a : Span}
    (hmem : (r, a) ∈ located .start (cut next source)) :
    ∃ piece ∈ cut next source, piece.reading = r ∧ piece.Sound := by
  obtain ⟨xs, x, ys, hcut, rfl, -⟩ := exists_of_mem_located hmem
  have hx : x ∈ cut next source := by simp [hcut]
  exact ⟨x, hx, rfl, sound_of_mem_cut h hx⟩

/-- What was skipped is what pieces are read as that are no tokens. -/
theorem mem_skipped_iff {a : Anomaly} :
    a ∈ (lexWith next source).skipped ↔
      (.skipped a.kind, a.span) ∈ located .start (cut next source) := by
  unfold Lexed.skipped
  rw [List.mem_filter]
  constructor
  · intro hmem
    obtain ⟨hmem, hclosed⟩ := hmem
    obtain ⟨r, hlocated, hanomaly⟩ := exists_of_mem_anomaliesOf hmem
    obtain ⟨piece, -, rfl, hsound⟩ := exists_sound_of_mem_located h source hlocated
    cases hr : piece.reading with
    | blank | token => simp [hr, Reading.anomaly?] at hanomaly
    | openToken k missing =>
        obtain rfl : missing = a.kind := by simpa [hr, Reading.anomaly?] using hanomaly
        simp_all [Piece.Sound]
    | skipped why =>
        obtain rfl : why = a.kind := by simpa [hr, Reading.anomaly?] using hanomaly
        rwa [hr] at hlocated
  · intro hlocated
    obtain ⟨piece, -, hr, hsound⟩ := exists_sound_of_mem_located h source hlocated
    refine ⟨List.mem_filterMap.mpr ⟨_, hlocated, rfl⟩, ?_⟩
    simpa [Piece.Sound, hr] using hsound

/-- A missing closing mark is what a token lacks. -/
theorem exists_openToken_of_isOpen {a : Anomaly} {pieces more : List (Piece κ)}
    (hcut : cut next source = pieces ++ more) (hmem : a ∈ anomaliesOf pieces)
    (hopen : a.kind.isOpen = true) :
    ∃ k, (.openToken k a.kind, a.span) ∈ located .start pieces := by
  obtain ⟨r, hlocated, hanomaly⟩ := exists_of_mem_anomaliesOf hmem
  have hcut' : (r, a.span) ∈ located .start (cut next source) := by
    rw [hcut, located_append]
    exact List.mem_append_left _ hlocated
  obtain ⟨piece, -, hr, hsound⟩ := exists_sound_of_mem_located h source hcut'
  cases r with
  | blank | token => simp [Reading.anomaly?] at hanomaly
  | openToken k missing =>
      obtain rfl : missing = a.kind := by simpa [Reading.anomaly?] using hanomaly
      exact ⟨k, hlocated⟩
  | skipped why =>
      obtain rfl : why = a.kind := by simpa [Reading.anomaly?] using hanomaly
      simp_all [Piece.Sound]

omit h in
theorem dropLast_tokens_lexWith :
    (lexWith next source).tokens.dropLast = tokensOf (cut next source) :=
  List.dropLast_concat

theorem isEof_of_mem_tokensOf {t : Token κ} (ht : t ∈ tokensOf (cut next source)) :
    TokenKind.isEof t.kind = false := by
  obtain ⟨r, hlocated, htoken⟩ := exists_of_mem_tokensOf ht
  obtain ⟨xs, x, ys, hcut, rfl, -⟩ := exists_of_mem_located hlocated
  obtain ⟨c, rest, rfl⟩ := exists_of_mem_cut (show x ∈ cut next source by simp [hcut])
  exact h.isEof c rest _ htoken

/-- The spans of a lexed source are spans of its pieces. -/
theorem exists_located_of_mem_ranges {a : Span} (ha : a ∈ (lexWith next source).ranges) :
    ∃ r, (r, a) ∈ located .start (cut next source) := by
  rw [Lexed.ranges, dropLast_tokens_lexWith, List.mem_append, List.mem_map, List.mem_map] at ha
  rcases ha with ⟨t, ht, rfl⟩ | ⟨a, ha, rfl⟩
  · obtain ⟨r, hlocated, -⟩ := exists_of_mem_tokensOf ht
    exact ⟨r, hlocated⟩
  · exact ⟨_, (mem_skipped_iff h source).mp ha⟩

theorem isStretch_of_mem_located_cut {r : Reading κ} {a : Span}
    (ha : (r, a) ∈ located .start (cut next source)) : a.IsStretch source := by
  have hstretch := isStretch_of_mem_located (fun _ => text_ne_nil_of_mem_cut h) ha
  rwa [flatMap_text_cut h] at hstretch

theorem pairwise_located_cut :
    (located .start (cut next source)).Pairwise fun x y => x.2.Before y.2 :=
  pairwise_located (fun _ => text_ne_nil_of_mem_cut h) .start

/-- What is made of readings and their spans stays in the order of the pieces. -/
theorem pairwise_filterMap_located {β γ : Type} {f : Reading κ → Option β} {make : β → Span → γ}
    {span : γ → Span} (hspan : ∀ b a, span (make b a) = a) :
    ((located .start (cut next source)).filterMap fun (r, a) => (f r).map (make · a)).Pairwise
      fun x y => (span x).Before (span y) := by
  refine (pairwise_located_cut h source).filterMap _ ?_
  rintro ⟨r, a⟩ ⟨r', a'⟩ hbefore x hx y hy
  obtain ⟨b, -, rfl⟩ := Option.map_eq_some_iff.mp hx
  obtain ⟨b', -, rfl⟩ := Option.map_eq_some_iff.mp hy
  rwa [hspan, hspan]

theorem pairwise_tokensOf :
    (tokensOf (cut next source)).Pairwise fun t u => t.span.Before u.span :=
  pairwise_filterMap_located h source fun _ _ => rfl

theorem pairwise_anomaliesOf :
    (anomaliesOf (cut next source)).Pairwise fun a b => a.span.Before b.span :=
  pairwise_filterMap_located h source fun _ _ => rfl

/-- A piece is a token or skipped, but not both. -/
theorem disjoint_token_skipped {t : Token κ} {a : Anomaly}
    (ht : t ∈ tokensOf (cut next source)) (ha : a ∈ (lexWith next source).skipped) :
    t.span.Disjoint a.span := by
  obtain ⟨r, ht, htoken⟩ := exists_of_mem_tokensOf ht
  have ha := (mem_skipped_iff h source).mp ha
  have hdisjoint := (pairwise_located_cut h source).imp fun hbefore => hbefore.disjoint
  have hsymm : Std.Symm fun x y : Reading κ × Span => x.2.Disjoint y.2 :=
    ⟨fun _ _ => Span.Disjoint.symm⟩
  refine hdisjoint.forall ht ha fun heq => ?_
  obtain ⟨rfl, -⟩ := Prod.mk.inj heq
  simp [Reading.token?] at htoken

theorem pairwise_disjoint_ranges : (lexWith next source).ranges.Pairwise Span.Disjoint := by
  rw [Lexed.ranges, dropLast_tokens_lexWith]
  refine List.pairwise_append.mpr ⟨?_, ?_, ?_⟩
  · exact List.pairwise_map.mpr ((pairwise_tokensOf h source).imp Span.Before.disjoint)
  · refine List.pairwise_map.mpr (((pairwise_anomaliesOf h source).imp ?_).sublist
      List.filter_sublist)
    exact Span.Before.disjoint
  · intro a ha b hb
    obtain ⟨t, ht, rfl⟩ := List.mem_map.mp ha
    obtain ⟨s, hs, rfl⟩ := List.mem_map.mp hb
    exact disjoint_token_skipped h source ht hs

/-- A byte that lies in no token and in nothing that was skipped is a byte of a
blank. -/
theorem isBlank_of_not_mem_ranges {before behind : List Char} {c : Char} {i : Nat}
    (hsource : source = before ++ c :: behind) (hlow : byteLength before ≤ i)
    (hhigh : i < byteLength before + c.utf8Size)
    (hout : ∀ a ∈ (lexWith next source).ranges, ¬ a.Contains i) : isBlank c = true := by
  obtain ⟨x, hx, a, ha, hcontains, hc⟩ :=
    exists_located_of_char ((flatMap_text_cut h source).trans hsource) hlow hhigh
  have htoken : ∀ k, x.reading.token? = some k → False := fun k hk =>
    hout a (List.mem_append_left _ (List.mem_map.mpr
      ⟨⟨k, a⟩, by
        rw [dropLast_tokens_lexWith]
        exact List.mem_filterMap.mpr ⟨_, ha, by simp [hk]⟩, rfl⟩)) hcontains
  have hsound := sound_of_mem_cut h hx
  cases hr : x.reading with
  | blank =>
      rw [Piece.Sound, hr] at hsound
      exact hsound c hc
  | token k | openToken k missing => exact (htoken k (by rw [hr]; rfl)).elim
  | skipped why =>
      rw [hr] at ha
      exact (hout a (List.mem_append_right _ (List.mem_map.mpr
        ⟨⟨why, a⟩, (mem_skipped_iff h source).mpr ha, rfl⟩)) hcontains).elim

/-- A missing closing mark belongs to the last piece. -/
theorem exists_last_of_isOpen {a : Anomaly} (ha : a ∈ anomaliesOf (cut next source))
    (hopen : a.kind.isOpen = true) :
    ∃ xs x k, cut next source = xs ++ [x] ∧ x.reading = .openToken k a.kind ∧
      a.span = (Position.start.after (xs.flatMap (·.text))).span x.text := by
  obtain ⟨k, hlocated⟩ :=
    exists_openToken_of_isOpen h source (List.append_nil _).symm ha hopen
  obtain ⟨xs, x, ys, hcut, hx, hspan⟩ := exists_of_mem_located hlocated
  obtain rfl := eq_nil_of_isOpen h hcut (by rw [← hx]; rfl)
  exact ⟨xs, x, k, hcut, hx.symm, hspan⟩

/-- A missing closing mark is the last anomaly, and it is that of the last token,
which goes on to the end of the source. -/
theorem missing_lexWith {a : Anomaly} (ha : a ∈ (lexWith next source).anomalies)
    (hopen : a.kind.isOpen = true) :
    ∃ anomalies t, (lexWith next source).anomalies = anomalies ++ [a] ∧
      (∀ b ∈ anomalies, b.kind.isOpen = false) ∧
      (lexWith next source).tokens.dropLast.getLast? = some t ∧ t.span = a.span ∧
      a.span.offset + a.span.length = byteLength source := by
  obtain ⟨xs, x, k, hcut, hx, hspan⟩ := exists_last_of_isOpen h source ha hopen
  refine ⟨anomaliesOf xs, ⟨k, a.span⟩, ?_, ?_, ?_, rfl, ?_⟩
  · show anomaliesOf (cut next source) = _
    rw [hcut, anomaliesOf, located_append, List.filterMap_append]
    simp [anomaliesOf, located, hx, Reading.anomaly?, ← hspan]
  · intro b hb
    by_contra hbopen
    obtain ⟨l, hlocated⟩ :=
      exists_openToken_of_isOpen h source hcut hb (by simpa using hbopen)
    -- a piece that lacks its closing mark stands in front of the last one
    obtain ⟨us, u, vs, rfl, hu, -⟩ := exists_of_mem_located hlocated
    have hnil := eq_nil_of_isOpen h (hcut.trans (by simp : _ = us ++ u :: (vs ++ [x])))
      (by rw [← hu]; rfl)
    simp at hnil
  · rw [dropLast_tokens_lexWith, hcut, tokensOf, located_append, List.filterMap_append]
    simp [located, hx, Reading.token?, ← hspan]
  · have htext := flatMap_text_cut h source
    rw [hcut, List.flatMap_append, List.flatMap_singleton] at htext
    rw [hspan, ← htext, byteLength_append]
    simp

end

/-- What a lawful language reads off a text is lossless. -/
theorem lossless_lexWith {next : Char → List Char → Piece κ} (h : LawfulCut next)
    (source : String) : (lexWith next source.toList).Lossless source where
  ends := ⟨tokensOf (cut next source.toList), ⟨TokenKind.eof, endSpan source.toList⟩, rfl, rfl,
    by simp [endSpan, byteLength_toList], rfl, fun _ => isEof_of_mem_tokensOf h source.toList⟩
  stretches a ha := by
    obtain ⟨r, hlocated⟩ := exists_located_of_mem_ranges h source.toList ha
    exact isStretch_of_mem_located_cut h source.toList hlocated
  disjoint := pairwise_disjoint_ranges h source.toList
  tokens_sorted := by
    refine List.pairwise_append.mpr ⟨?_, List.pairwise_singleton _ _, ?_⟩
    · exact (pairwise_tokensOf h source.toList).imp And.left
    · intro t ht u hu
      obtain rfl := List.mem_singleton.mp hu
      obtain ⟨r, hlocated, -⟩ := exists_of_mem_tokensOf ht
      obtain ⟨before, text, behind, hsource, hne, hoffset, -⟩ :=
        isStretch_of_mem_located_cut h source.toList hlocated
      have hpos := byteLength_pos hne
      simp only [endSpan, Position.offset_span, Position.offset_after, Position.offset_start,
        hsource, byteLength_append]
      omega
  anomalies_sorted := (pairwise_anomaliesOf h source.toList).imp And.left
  gaps _ _ _ hsource _ hlow hhigh hout :=
    isBlank_of_not_mem_ranges h source.toList hsource hlow hhigh hout
  missing a ha hopen := by
    rw [← byteLength_toList]
    exact missing_lexWith h source.toList ha hopen

end

/-- Both languages read a text without losing anything. -/
theorem lossless_lex (source : String) :
    (Condition.lex source).Lossless source ∧ (Expr.lex source).Lossless source :=
  ⟨lossless_lexWith Condition.lawfulCut source, lossless_lexWith Expr.lawfulCut source⟩

end FormLogic
