import FormLogic.Proofs.Evaluator
import FormLogic.Proofs.Lossless

/-!
# FormLogic.Proofs.Blanking

Skipping a stretch of the source is the same as writing spaces over it. A
skipped piece becomes as many blank pieces as it has bytes (`cut_blankedText`),
so the other pieces keep their offsets, and tokens and missing closing marks stay
as they are.
-/

namespace FormLogic

open Text

/-! ## Spaces over spans -/

/-- Whether `blanked` is the source with a space over every byte that lies in one
of the spans. -/
def IsBlanked (spans : List Span) (source blanked : String) : Prop :=
  blanked.toUTF8.data.toList = source.toUTF8.data.toList.mapIdx fun i b =>
    if ∃ a ∈ spans, a.Contains i then 0x20 else b

theorem IsBlanked.unique {spans : List Span} {source s t : String} (hs : IsBlanked spans source s)
    (ht : IsBlanked spans source t) : s = t := by
  have hdata := Array.toList_inj.mp (hs.trans ht.symm)
  exact String.toByteArray_inj.mp (ByteArray.ext hdata)

section
variable {κ : Type}

/-! ## Blanked pieces -/

/-- Whether a reading is no token. -/
def Reading.isSkipped : Reading κ → Bool
  | .skipped _ => true
  | _ => false

/-- The text of a piece, with spaces in its place if it is skipped. -/
def Piece.blankedText (x : Piece κ) : List Char :=
  if x.reading.isSkipped then List.replicate (byteLength x.text) ' ' else x.text

/-- The pieces that a piece becomes when spaces are written over what is skipped. -/
def Piece.blanked (x : Piece κ) : List (Piece κ) :=
  if x.reading.isSkipped then List.replicate (byteLength x.text) (charPiece ' ' .blank) else [x]

theorem isSkipped_of_mem_blanked {x y : Piece κ} (h : y ∈ x.blanked) :
    y.reading.isSkipped = false := by
  unfold Piece.blanked at h
  split at h
  · obtain rfl := List.eq_of_mem_replicate h
    rfl
  · next hx =>
      obtain rfl := List.mem_singleton.mp h
      simpa using hx

/-! ## Bytes -/

theorem bytes_replicate_space (n : Nat) : bytes (List.replicate n ' ') = List.replicate n 0x20 := by
  induction n with
  | zero => rfl
  | succ n ih =>
      rw [List.replicate_succ, List.replicate_succ, ← ih]
      rfl

theorem bytes_blankedText (x : Piece κ) :
    bytes x.blankedText = (bytes x.text).map fun b => if x.reading.isSkipped then 0x20 else b := by
  unfold Piece.blankedText
  split
  · rw [bytes_replicate_space, List.map_const', length_bytes]
  · exact (List.map_id' _).symm

/-- The spans of the pieces that are skipped, the first piece starting at `p`. -/
def skippedSpans (p : Position) (pieces : List (Piece κ)) : List Span :=
  ((located p pieces).filter (·.1.isSkipped)).map (·.2)

theorem exists_contains_cons {p : Position} {x : Piece κ} {pieces : List (Piece κ)} {i : Nat} :
    (∃ a ∈ skippedSpans p (x :: pieces), a.Contains i) ↔
      x.reading.isSkipped = true ∧ (p.span x.text).Contains i ∨
        ∃ a ∈ skippedSpans (p.after x.text) pieces, a.Contains i := by
  rw [skippedSpans, located, List.filter_cons]
  by_cases h : x.reading.isSkipped = true <;> simp [h, skippedSpans]

theorem offset_le_of_mem_skippedSpans {p : Position} {pieces : List (Piece κ)} {a : Span}
    (h : a ∈ skippedSpans p pieces) : p.offset ≤ a.offset := by
  obtain ⟨⟨r, a⟩, hmem, rfl⟩ := List.mem_map.mp h
  obtain ⟨xs, x, ys, -, -, rfl⟩ := exists_of_mem_located (List.mem_filter.mp hmem).1
  simp

/-- A byte of the first piece lies in something skipped exactly when that piece is
skipped. -/
theorem exists_contains_head {p : Position} {x : Piece κ} {pieces : List (Piece κ)} {i : Nat}
    (hi : i < byteLength x.text) :
    (∃ a ∈ skippedSpans p (x :: pieces), a.Contains (p.offset + i)) ↔
      x.reading.isSkipped = true := by
  rw [exists_contains_cons]
  constructor
  · rintro (⟨hx, -⟩ | ⟨a, ha, hcontains⟩)
    · exact hx
    · have hoffset := offset_le_of_mem_skippedSpans ha
      simp only [Span.Contains, Position.offset_after] at hcontains hoffset
      omega
  · intro hx
    refine .inl ⟨hx, ?_⟩
    simp only [Span.Contains, Position.offset_span, Position.length_span]
    omega

/-- A byte behind the first piece does not lie in it. -/
theorem exists_contains_tail {p : Position} {x : Piece κ} {pieces : List (Piece κ)} {i : Nat} :
    (∃ a ∈ skippedSpans p (x :: pieces), a.Contains (p.offset + (i + byteLength x.text))) ↔
      ∃ a ∈ skippedSpans (p.after x.text) pieces, a.Contains ((p.after x.text).offset + i) := by
  have hbyte : (p.after x.text).offset + i = p.offset + (i + byteLength x.text) := by
    rw [Position.offset_after]
    omega
  rw [exists_contains_cons, hbyte]
  refine or_iff_right fun hin => ?_
  have hcontains := hin.2
  simp only [Span.Contains, Position.offset_span, Position.length_span] at hcontains
  omega

/-- Writing spaces over the skipped pieces writes them over the bytes of these
pieces and no others. -/
theorem bytes_flatMap_blankedText (p : Position) (pieces : List (Piece κ)) :
    bytes (pieces.flatMap Piece.blankedText) = (bytes (pieces.flatMap (·.text))).mapIdx fun i b =>
      if ∃ a ∈ skippedSpans p pieces, a.Contains (p.offset + i) then 0x20 else b := by
  induction pieces generalizing p with
  | nil => rfl
  | cons x pieces ih =>
      rw [List.flatMap_cons, List.flatMap_cons, bytes_append, bytes_append, List.mapIdx_append,
        ih (p.after x.text), bytes_blankedText]
      simp only [length_bytes, exists_contains_tail]
      congr 1
      refine List.ext_getElem (by simp) fun i hi _ => ?_
      have hi : i < byteLength x.text := by simpa using hi
      simp only [List.getElem_map, List.getElem_mapIdx, exists_contains_head hi]

/-- The source with spaces over what is skipped is what its pieces are blanked
to. -/
theorem isBlanked_flatMap_blankedText {source : String} {pieces : List (Piece κ)}
    (h : pieces.flatMap (·.text) = source.toList) :
    IsBlanked (skippedSpans .start pieces) source
      (String.ofList (pieces.flatMap Piece.blankedText)) := by
  have hbytes := bytes_flatMap_blankedText .start pieces
  simp only [h, Position.offset_start, Nat.zero_add] at hbytes
  rw [IsBlanked, toUTF8_eq_bytes, toUTF8_eq_bytes, String.toList_ofList, hbytes]

/-! ## Tokens and anomalies with their ranges -/

/-- A token's kind, with the offset and the length of its span. -/
def Token.range (t : Token κ) : κ × Nat × Nat := (t.kind, t.span.offset, t.span.length)

/-- An anomaly's kind, with the offset and the length of its span. -/
def Anomaly.range (a : Anomaly) : AnomalyKind × Nat × Nat := (a.kind, a.span.offset, a.span.length)

/-- The closing mark that a reading lacks. -/
def Reading.missing? : Reading κ → Option AnomalyKind
  | .openToken _ missing => some missing
  | _ => none

/-- What `f` makes of the readings of some pieces, with offsets and lengths. The
first piece starts at the offset `i`. -/
def rangesOf {β : Type} (f : Reading κ → Option β) : (i : Nat) → List (Piece κ) →
    List (β × Nat × Nat)
  | _, [] => []
  | i, x :: pieces => ((f x.reading).map (·, i, byteLength x.text)).toList ++
      rangesOf f (i + byteLength x.text) pieces

section
variable {β : Type} {f : Reading κ → Option β}

theorem filterMap_located (p : Position) (pieces : List (Piece κ)) :
    (located p pieces).filterMap (fun (r, a) => (f r).map (·, a.offset, a.length)) =
      rangesOf f p.offset pieces := by
  induction pieces generalizing p with
  | nil => rfl
  | cons x pieces ih =>
      rw [located, List.filterMap_cons, rangesOf, ← Position.offset_after, ← ih]
      cases h : f x.reading <;> simp [h]

theorem rangesOf_replicate_blank (hblank : f .blank = none) (n i : Nat)
    (pieces : List (Piece κ)) :
    rangesOf f i (List.replicate n (charPiece ' ' .blank) ++ pieces) =
      rangesOf f (i + n) pieces := by
  induction n generalizing i with
  | zero => rfl
  | succ n ih =>
      rw [List.replicate_succ, List.cons_append, rangesOf]
      simp only [charPiece, hblank, Option.map_none, Option.toList_none, List.nil_append]
      rw [Nat.add_comm n, ← Nat.add_assoc]
      exact ih (i + 1)

/-- Ranges do not change when what is not looked at is blanked. -/
theorem rangesOf_blanked (hblank : f .blank = none) (hskipped : ∀ why, f (.skipped why) = none)
    (i : Nat) (pieces : List (Piece κ)) :
    rangesOf f i (pieces.flatMap Piece.blanked) = rangesOf f i pieces := by
  induction pieces generalizing i with
  | nil => rfl
  | cons x pieces ih =>
      rw [List.flatMap_cons]
      cases hx : x.reading with
      | skipped why =>
          rw [Piece.blanked, if_pos (by rw [hx]; rfl), rangesOf_replicate_blank hblank, ih,
            rangesOf, hx, hskipped]
          rfl
      | blank | token | openToken =>
          rw [Piece.blanked, if_neg (by rw [hx]; exact Bool.false_ne_true), List.singleton_append,
            rangesOf, ih, rangesOf]

end

theorem map_range_tokensOf (pieces : List (Piece κ)) :
    (tokensOf pieces).map Token.range = rangesOf Reading.token? 0 pieces := by
  rw [← Position.offset_start, ← filterMap_located, tokensOf, List.map_filterMap]
  refine List.filterMap_congr fun x _ => ?_
  rw [Option.map_map]
  rfl

/-! ## Cutting a blanked source -/

variable [TokenKind κ] {next : Char → List Char → Piece κ} (h : LawfulCut next)
include h

theorem cut_replicate_space (n : Nat) (rest : List Char) :
    cut next (List.replicate n ' ' ++ rest) =
      List.replicate n (charPiece ' ' .blank) ++ cut next rest := by
  induction n with
  | zero => rfl
  | succ n ih =>
      have hspace := h.space (List.replicate n ' ' ++ rest)
      rw [List.replicate_succ, List.cons_append, cut_cons, hspace]
      show _ :: cut next (List.replicate n ' ' ++ rest) = _
      rw [ih, List.replicate_succ, List.cons_append]

/-- What follows on a source follows on it with spaces over what is skipped. -/
theorem follows_flatMap_blankedText (source : List Char) :
    Follows source ((cut next source).flatMap Piece.blankedText) := by
  refine cut_induction h (motive := fun source pieces =>
    Follows source (pieces.flatMap Piece.blankedText)) (by simp [Follows]) ?_ source
  intro c s t hstarts _ d hd
  rw [List.flatMap_cons, Piece.blankedText, hstarts.text] at hd
  by_cases hx : (next c (s ++ t)).reading.isSkipped = true
  · obtain ⟨n, hn⟩ := Nat.exists_eq_add_of_lt (byteLength_pos (List.cons_ne_nil c s))
    rw [if_pos hx, hn, List.replicate_succ] at hd
    exact .inr (.inl (by simpa using hd.symm))
  · rw [if_neg hx] at hd
    exact .inl hd

/-- Skipped pieces become blanks when spaces are written over them, and the other
pieces stay as they are. -/
theorem cut_flatMap_blankedText (source : List Char) :
    cut next ((cut next source).flatMap Piece.blankedText) =
      (cut next source).flatMap Piece.blanked := by
  refine cut_induction h (motive := fun source pieces =>
    cut next (pieces.flatMap Piece.blankedText) = pieces.flatMap Piece.blanked) ?_ ?_ source
  · simp
  · intro c s t hstarts ih
    rw [List.flatMap_cons, List.flatMap_cons]
    by_cases hx : (next c (s ++ t)).reading.isSkipped = true
    · simp only [Piece.blankedText, Piece.blanked, hx, if_true] at ih ⊢
      rw [cut_replicate_space h, ih]
    · have hnext : next c (s ++ (cut next t).flatMap Piece.blankedText) = next c (s ++ t) := by
        by_cases hopen : (next c (s ++ t)).reading.isOpen = true
        · -- nothing stands behind the piece
          obtain rfl := hstarts.end_of_open hopen
          rw [cut_nil, List.flatMap_nil]
        · exact hstarts.steady (by simpa using hopen) _ (follows_flatMap_blankedText h t)
      rw [Piece.blankedText, Piece.blanked, if_neg hx, if_neg hx, hstarts.text,
        cut_append (by rw [hnext, hstarts.text]), hnext, ih]
      rfl

theorem byteLength_flatMap_blankedText (source : List Char) :
    byteLength ((cut next source).flatMap Piece.blankedText) = byteLength source := by
  rw [← length_bytes, bytes_flatMap_blankedText .start, List.length_mapIdx, length_bytes,
    flatMap_text_cut h]

/-- A blanked source has the tokens of the source, at the same places. -/
theorem map_range_tokens_blanked (source : List Char) :
    (lexWith next ((cut next source).flatMap Piece.blankedText)).tokens.map Token.range =
      (lexWith next source).tokens.map Token.range := by
  simp only [lexWith, List.map_append, map_range_tokensOf, cut_flatMap_blankedText h]
  rw [rangesOf_blanked rfl fun _ => rfl]
  simp [Token.range, endSpan, byteLength_flatMap_blankedText h]

/-- The closing marks that a source lacks are told by its pieces. -/
theorem map_range_missing (source : List Char) :
    ((lexWith next source).anomalies.filter (·.kind.isOpen)).map Anomaly.range =
      rangesOf Reading.missing? 0 (cut next source) := by
  rw [← Position.offset_start, ← filterMap_located, lexWith, anomaliesOf, List.filter_filterMap,
    List.map_filterMap]
  refine List.filterMap_congr fun x hx => ?_
  obtain ⟨r, a⟩ := x
  obtain ⟨piece, -, rfl, hsound⟩ := exists_sound_of_mem_located h source hx
  cases hr : piece.reading <;>
    simp_all [Piece.Sound, Reading.anomaly?, Reading.missing?, Anomaly.range]

/-- A blanked source lacks the closing marks that the source lacks, and nothing
else is out of place. -/
theorem map_range_anomalies_blanked (source : List Char) :
    (lexWith next ((cut next source).flatMap Piece.blankedText)).anomalies.map Anomaly.range =
      ((lexWith next source).anomalies.filter (·.kind.isOpen)).map Anomaly.range := by
  have hopen : ∀ a ∈ (lexWith next ((cut next source).flatMap Piece.blankedText)).anomalies,
      a.kind.isOpen = true := by
    intro a ha
    by_contra hclosed
    have hskipped := (mem_skipped_iff h _).mp (List.mem_filter.mpr ⟨ha, by simpa using hclosed⟩)
    rw [cut_flatMap_blankedText h] at hskipped
    obtain ⟨xs, y, ys, hpieces, hy, -⟩ := exists_of_mem_located hskipped
    have hmem : y ∈ (cut next source).flatMap Piece.blanked := by simp [hpieces]
    obtain ⟨x, -, hmem⟩ := List.mem_flatMap.mp hmem
    have hkept := isSkipped_of_mem_blanked hmem
    rw [← hy] at hkept
    contradiction
  rw [← List.filter_eq_self.mpr hopen, map_range_missing h, map_range_missing h,
    cut_flatMap_blankedText h, rangesOf_blanked rfl fun _ => rfl]

/-- The skipped pieces are those that are recorded as skipped. -/
theorem mem_skippedSpans_iff (source : List Char) {a : Span} :
    a ∈ skippedSpans .start (cut next source) ↔
      a ∈ (lexWith next source).skipped.map (·.span) := by
  unfold skippedSpans
  constructor
  · intro ha
    obtain ⟨⟨r, a⟩, hmem, rfl⟩ := List.mem_map.mp ha
    obtain ⟨hlocated, hr⟩ := List.mem_filter.mp hmem
    cases r with
    | blank | token | openToken => simp [Reading.isSkipped] at hr
    | skipped why =>
        exact List.mem_map.mpr ⟨⟨why, a⟩, (mem_skipped_iff h source).mpr hlocated, rfl⟩
  · intro ha
    obtain ⟨b, hb, rfl⟩ := List.mem_map.mp ha
    have hlocated := (mem_skipped_iff h source).mp hb
    exact List.mem_map.mpr ⟨_, List.mem_filter.mpr ⟨hlocated, rfl⟩, rfl⟩

end

/-! ## Reading a blanked source -/

/-- A blanked text is read as the source is, but for what is skipped. -/
structure ReadAsBlanked {κ τ : Type} (lex : String → Lexed κ)
    (parse : String → Bool → Except SourceFault (Parsed τ)) (source blanked : String) : Prop where
  /-- The tokens have the same kinds, offsets and lengths. -/
  tokens : (lex blanked).tokens.map Token.range = (lex source).tokens.map Token.range
  /-- The anomalies are the missing closing marks of the source. -/
  anomalies : (lex blanked).anomalies.map Anomaly.range =
    ((lex source).anomalies.filter (·.kind.isOpen)).map Anomaly.range
  /-- A lenient reading gives the same tree, or fails on both. -/
  lenient : tree? (parse blanked false) = tree? (parse source false)
  /-- When no closing mark is missing, a strict reading of the blanked text gives
  what a lenient reading of the source gives. -/
  strict : (∀ a ∈ (lex source).anomalies, a.kind.isOpen = false) →
    tree? (parse blanked true) = tree? (parse source false)

section
variable {κ τ : Type} [TokenKind κ] {next : Char → List Char → Piece κ} (h : LawfulCut next)
  {ofTokens : String → List (Token κ) → Except Fault τ}
  (hof : ∀ source source' tokens tokens' tree, kindsAhead tokens = kindsAhead tokens' →
    (ofTokens source tokens = .ok tree ↔ ofTokens source' tokens' = .ok tree))

theorem kindsAhead_eq_of_range {ts us : List (Token κ)}
    (h : ts.map Token.range = us.map Token.range) : kindsAhead ts = kindsAhead us := by
  have hkinds := congrArg (List.map Prod.fst) h
  rw [List.map_map, List.map_map] at hkinds
  exact congrArg (List.takeWhile fun k => !TokenKind.isEof k) hkinds

include h hof in
/-- Where trees depend on kinds alone, a source is read as its blanked text is. -/
theorem readAsBlanked (known : List String) (source : String) :
    ∃ blanked,
      (∀ b, IsBlanked ((lexWith next source.toList).skipped.map (·.span)) source b ↔
        b = blanked) ∧
      ReadAsBlanked (fun s => lexWith next s.toList)
        (parseWith known (fun s => lexWith next s.toList) ofTokens) source blanked := by
  let blanked := String.ofList ((cut next source.toList).flatMap Piece.blankedText)
  have hblanked : blanked.toList = (cut next source.toList).flatMap Piece.blankedText :=
    String.toList_ofList
  have hspans : ∀ b, IsBlanked ((lexWith next source.toList).skipped.map (·.span)) source b ↔
      IsBlanked (skippedSpans .start (cut next source.toList)) source b := by
    intro b
    simp only [IsBlanked, mem_skippedSpans_iff h]
  have hself := isBlanked_flatMap_blankedText (flatMap_text_cut h source.toList)
  have htokens := map_range_tokens_blanked h source.toList
  have hanomalies := map_range_anomalies_blanked h source.toList
  rw [← hblanked] at htokens hanomalies
  have htree : ∀ tree, ofTokens blanked (lexWith next blanked.toList).tokens = .ok tree ↔
      ofTokens source (lexWith next source.toList).tokens = .ok tree := fun tree =>
    hof _ _ _ _ tree (kindsAhead_eq_of_range htokens)
  refine ⟨blanked, fun b => ⟨fun hb => ((hspans b).mp hb).unique hself, ?_⟩, ?_⟩
  · rintro rfl
    exact (hspans _).mpr hself
  · refine ⟨htokens, hanomalies, ?_, fun hclosed => ?_⟩
    · ext tree
      simp [tree?_parseWith_eq_some, htree]
    · have hnone : (lexWith next blanked.toList).anomalies = [] := by
        rw [← List.map_eq_nil_iff, hanomalies, List.map_eq_nil_iff, List.filter_eq_nil_iff]
        simpa using hclosed
      ext tree
      simp [tree?_parseWith_eq_some, htree, hnone]

end

/-- Conditions read from kinds depend on nothing else. -/
theorem Condition.ofTokens_congr (source source' : String)
    (tokens tokens' : List (Token Condition.Kind)) (c : Condition)
    (h : kindsAhead tokens = kindsAhead tokens') :
    Condition.ofTokens source tokens = .ok c ↔ Condition.ofTokens source' tokens' = .ok c := by
  unfold Condition.ofTokens Condition.read
  rw [Condition.run_whole_disjunct_eq_ok, Condition.run_whole_disjunct_eq_ok, h]

/-- Expressions read from kinds depend on nothing else. -/
theorem Expr.ofTokens_congr (source source' : String) (tokens tokens' : List (Token Expr.Kind))
    (e : Expr) (h : kindsAhead tokens = kindsAhead tokens') :
    Expr.ofTokens source tokens = .ok e ↔ Expr.ofTokens source' tokens' = .ok e := by
  unfold Expr.ofTokens Expr.read
  rw [Expr.run_whole_expression_eq_ok, Expr.run_whole_expression_eq_ok, h]

/-- In both languages, skipping is the same as writing spaces: there is exactly
one text that is the source with a space over every byte that is skipped, and it
is read as the source is. -/
theorem skipping_is_blanking (source : String) :
    (∃ blanked,
      (∀ b, IsBlanked ((Condition.lex source).skipped.map (·.span)) source b ↔ b = blanked) ∧
      ReadAsBlanked Condition.lex parseCondition source blanked) ∧
    ∃ blanked,
      (∀ b, IsBlanked ((Expr.lex source).skipped.map (·.span)) source b ↔ b = blanked) ∧
      ReadAsBlanked Expr.lex parseExpr source blanked :=
  ⟨readAsBlanked Condition.lawfulCut Condition.ofTokens_congr Condition.keywords source,
    readAsBlanked Expr.lawfulCut Expr.ofTokens_congr Function.names source⟩

end FormLogic
