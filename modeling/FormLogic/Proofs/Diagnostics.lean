import FormLogic.Proofs.Blame
import FormLogic.Proofs.Lossless
import FormLogic.Proofs.Expr.Clean
import FormLogic.Proofs.Text.Slice

/-!
# FormLogic.Proofs.Diagnostics

What a diagnostic points at. The text at the span of a fault is the text that the
cause names (`Cause.Names`). The readers of both languages blame tokens of the
source, and a token is what its own text is lexed as (`cut_text_of_mem_cut`); a
strict reading blames the first anomaly. `Diagnosed` collects what the pieces of
a language have to say about their texts.
-/

namespace FormLogic

open Text

/-! ## What is named -/

/-- What stands at the span of an anomaly: the character, the word in some letter
case, or all of the source from the mark on that is never closed. -/
def AnomalyKind.Describes (source : String) (a : Span) (text : String) : AnomalyKind → Prop
  | .unexpectedCharacter c => text = String.singleton c
  | .unknownWord word => text.lowercase = word
  | .unterminatedString | .unterminatedVariable => a.offset + a.length = source.utf8ByteSize

/-- The text at the span of a cause is the one that the cause names. A token out of
place is what the text alone is lexed as, and the end of file is an empty text
behind the source. Too deep a nesting is at a text with which one more level
starts. -/
def Cause.Names {κ : Type} [TokenKind κ] (lex : String → Lexed κ) (opening : String → Prop)
    (source : String) (a : Span) (text : String) : Cause → Prop
  | .unknownFunction name _ => text = name
  | .unrecognizedInput why _ =>
    (lex source).anomalies.head? = some ⟨why, a⟩ ∧ why.Describes source a text
  | .unexpectedToken _ found =>
    (found = "<eof>" ∧ text = "" ∧ a.offset = source.utf8ByteSize) ∨
      ∃ k, TokenKind.isEof k = false ∧ TokenKind.text k = found ∧
        (lex text).tokens.map (·.kind) = [k, TokenKind.eof]
  | .nestingTooDeep _ => opening text

/-- A fault in a source points at what its cause names. -/
def Fault.Points {κ : Type} [TokenKind κ] (lex : String → Lexed κ) (opening : String → Prop)
    (source : String) (f : Fault) : Prop :=
  ∃ text, f.span.slice? source = some text ∧ f.cause.Names lex opening source f.span text

/-! ## Pieces on their own -/

section
variable {κ : Type} [TokenKind κ] {next : Char → List Char → Piece κ}

omit [TokenKind κ] in
theorem PieceStarts.eq_alone {piece : List Char → Piece κ} {c : Char} {s t : List Char}
    (h : PieceStarts piece c s t) : piece s = piece (s ++ t) := by
  cases hopen : (piece (s ++ t)).reading.isOpen with
  | true => rw [h.end_of_open hopen, List.append_nil]
  | false =>
      have hnil : Follows t [] := fun d hd => by simp at hd
      rw [← h.steady hopen [] hnil, List.append_nil]

/-- The text of a piece is cut into the piece alone. -/
theorem cut_text_of_mem_cut (h : LawfulCut next) {source : List Char} {piece : Piece κ}
    (hmem : piece ∈ cut next source) : cut next piece.text = [piece] := by
  obtain ⟨c, rest, rfl⟩ := exists_of_mem_cut hmem
  obtain ⟨s, t, rfl, hstarts⟩ := h.steady c rest
  have halone := hstarts.eq_alone
  have htext : (next c (s ++ [])).text = c :: s := by
    rw [List.append_nil, halone, hstarts.text]
  have hcut := cut_append htext
  rw [List.append_nil, List.append_nil, cut_nil, halone] at hcut
  rw [hstarts.text, hcut]

/-- What the pieces of a language say about their texts. The kinds in `opens` start
groups and calls, and `calls k name` says that `k` is the name of a call. -/
structure Diagnosed (next : Char → List Char → Piece κ) (opens : κ → Prop)
    (calls : κ → String → Prop) (opening : String → Prop) : Prop extends LawfulCut next where
  text_eof : TokenKind.text (TokenKind.eof : κ) = "<eof>"
  isEof_eof : TokenKind.isEof (TokenKind.eof : κ) = true
  not_opens_eof : ¬ opens TokenKind.eof
  not_calls_eof (name : String) : ¬ calls TokenKind.eof name
  describes (c : Char) (rest : List Char) (why : AnomalyKind) (source : String) (a : Span) :
    (next c rest).reading = .skipped why →
      why.Describes source a (String.ofList (next c rest).text)
  opening (c : Char) (rest : List Char) (k : κ) :
    (next c rest).reading.token? = some k → opens k → opening (String.ofList (next c rest).text)
  name (c : Char) (rest : List Char) (k : κ) (name : String) :
    (next c rest).reading.token? = some k → calls k name →
      String.ofList (next c rest).text = name

variable {opens : κ → Prop} {calls : κ → String → Prop} {opening : String → Prop}
  (h : Diagnosed next opens calls opening)
include h

/-- The span of a piece cuts its text out of the source. -/
theorem exists_slice?_of_mem_located {source : String} {r : Reading κ} {a : Span}
    (hmem : (r, a) ∈ located .start (cut next source.toList)) :
    ∃ piece ∈ cut next source.toList, piece.reading = r ∧
      a.slice? source = some (String.ofList piece.text) := by
  obtain ⟨xs, x, ys, hcut, rfl, rfl⟩ := exists_of_mem_located hmem
  refine ⟨x, by simp [hcut], rfl, slice?_eq_some.mpr ?_⟩
  have htext := flatMap_text_cut h.toLawfulCut source.toList
  rw [hcut] at htext
  exact ⟨xs.flatMap (·.text), ys.flatMap (·.text), by simp [← htext], by simp, by simp⟩

/-- A token that is blamed is named by the fault. -/
theorem Blame.points_of_mem {source : String} {t : Token κ}
    (ht : t ∈ tokensOf (cut next source.toList)) {cause : Cause}
    (hblame : Blame opens calls t.kind cause) :
    Fault.Points (fun s => lexWith next s.toList) opening source ⟨cause, t.span⟩ := by
  obtain ⟨r, hlocated, htoken⟩ := exists_of_mem_tokensOf ht
  obtain ⟨piece, hpiece, rfl, hslice⟩ := exists_slice?_of_mem_located h hlocated
  refine ⟨_, hslice, ?_⟩
  have halone := cut_text_of_mem_cut h.toLawfulCut hpiece
  obtain ⟨c, rest, rfl⟩ := exists_of_mem_cut hpiece
  cases hblame with
  | unexpected wanted =>
      refine .inr ⟨t.kind, h.isEof c rest _ htoken, rfl, ?_⟩
      simp [lexWith, String.toList_ofList, halone, map_kind_tokensOf, kindsOf, htoken]
  | tooDeep hopens => exact h.opening c rest _ htoken hopens
  | unknown hcalls => exact h.name c rest _ _ htoken hcalls

/-- The end of file can only be unexpected, and its span is empty. -/
theorem Blame.points_eof {source : String} {cause : Cause}
    (hblame : Blame opens calls TokenKind.eof cause) :
    Fault.Points (fun s => lexWith next s.toList) opening source
      ⟨cause, endSpan source.toList⟩ := by
  have hslice : (endSpan source.toList).slice? source = some "" :=
    slice?_eq_some.mpr ⟨source.toList, [], by simp, by simp [endSpan], by simp [endSpan]⟩
  refine ⟨"", hslice, ?_⟩
  cases hblame with
  | unexpected wanted =>
      exact .inl ⟨h.text_eof, rfl, by simp [endSpan, byteLength_toList]⟩
  | tooDeep hopens => exact absurd hopens h.not_opens_eof
  | unknown hcalls => exact absurd hcalls (h.not_calls_eof _)

/-- The first anomaly of a source is named by its refusal. -/
theorem points_of_rejected {source : String} {known : List String} {f : Fault}
    (hrejected : rejectAnomalies known (lexWith next source.toList).anomalies = .error f) :
    Fault.Points (fun s => lexWith next s.toList) opening source f := by
  cases hanomalies : (lexWith next source.toList).anomalies with
  | nil => simp [hanomalies, rejectAnomalies] at hrejected
  | cons a as =>
      rw [hanomalies] at hrejected
      obtain rfl := Except.error.inj hrejected
      have ha : a ∈ anomaliesOf (cut next source.toList) :=
        List.mem_of_mem_head? (show (lexWith next source.toList).anomalies.head? = _ by
          rw [hanomalies]; rfl)
      obtain ⟨r, hlocated, hanomaly⟩ := exists_of_mem_anomaliesOf ha
      obtain ⟨piece, hpiece, rfl, hslice⟩ := exists_slice?_of_mem_located h hlocated
      refine ⟨_, hslice, by simp [hanomalies], ?_⟩
      have hsound := sound_of_mem_cut h.toLawfulCut hpiece
      cases hreading : piece.reading with
      | blank | token => simp [hreading, Reading.anomaly?] at hanomaly
      | openToken k missing =>
          obtain rfl : missing = a.kind := by simpa [hreading, Reading.anomaly?] using hanomaly
          have hopen : a.kind.isOpen = true := by simpa [Piece.Sound, hreading] using hsound
          obtain ⟨-, -, -, -, -, -, hend⟩ :=
            missing_lexWith h.toLawfulCut source.toList ha hopen
          rw [byteLength_toList] at hend
          cases hkind : a.kind with
          | unknownWord | unexpectedCharacter => simp [hkind, AnomalyKind.isOpen] at hopen
          | unterminatedString | unterminatedVariable => exact hend
      | skipped why =>
          obtain rfl : why = a.kind := by simpa [hreading, Reading.anomaly?] using hanomaly
          obtain ⟨c, rest, rfl⟩ := exists_of_mem_cut hpiece
          exact h.describes c rest _ source a.span hreading

/-- A source that cannot be read is refused at what the cause names. -/
theorem parseWith_points {τ : Type} {read : Reader κ τ}
    (hread : ∀ s, Reader.Blames opens calls read s) {known : List String} {source : String}
    {strict : Bool} {e : SourceFault}
    (herror : parseWith known (fun s => lexWith next s.toList)
      (fun source tokens => (read.run (.ofTokens source tokens)).map (·.1)) source strict =
        .error e) :
    e.source = source ∧ e.fault.Points (fun s => lexWith next s.toList) opening source := by
  obtain ⟨hsource, hrejected | hrun⟩ := parseWith_eq_error herror
  · exact ⟨hsource, points_of_rejected h hrejected⟩
  · have heof : ∃ t ∈ (lexWith next source.toList).tokens, TokenKind.isEof t.kind = true :=
      ⟨_, List.mem_append_right _ (List.mem_singleton_self _), h.isEof_eof⟩
    have hblames := hread (.ofTokens source (lexWith next source.toList).tokens)
    rw [Reader.Blames, map_eq_error.mp hrun] at hblames
    obtain ⟨source', cause, span⟩ := e
    obtain ⟨t, ht, rfl, hblame⟩ := hblames
    refine ⟨hsource, ?_⟩
    rcases List.mem_append.mp (Stream.tokens_ofTokens_subset heof ht) with hpiece | hlast
    · exact hblame.points_of_mem h hpiece
    · obtain rfl := List.mem_singleton.mp hlast
      exact hblame.points_eof h

end

/-! ## Conditions -/

namespace Condition

open Reader

/-- Groups start with a parenthesis. -/
def Kind.Opens (k : Kind) : Prop := k = .leftParen

/-- No condition calls anything. -/
def Kind.Calls (_ : Kind) (_ : String) : Prop := False

theorem blames_comparison (s : Stream Kind) : Blames Kind.Opens Kind.Calls comparison s := by
  refine blames_peek_bind ?_
  cases s.current.kind with
  | var name =>
      refine blames_advance_bind fun s' => blames_peek_bind ?_
      dsimp only
      split
      · refine blames_advance_bind fun s' => blames_peek_bind ?_
        split
        · exact blames_advance_bind fun _ => blames_pure _
        · exact blames_unexpected .literal
      · exact blames_unexpected .operator
  | _ => exact blames_unexpected .variable

theorem blames_primary {inner? : Option (Reader Kind Condition)}
    (h : ∀ inner ∈ inner?, ∀ s, Blames Kind.Opens Kind.Calls inner s) (s : Stream Kind) :
    Blames Kind.Opens Kind.Calls (primary inner?) s := by
  refine blames_peek_bind ?_
  split
  · next hparen =>
      refine blames_nested hparen fun inner hinner => blames_advance_bind fun s' => ?_
      exact (h inner hinner s').bind fun _ _ => (blames_close _).bind fun _ _ =>
        blames_pure _
  · exact blames_comparison s

theorem blames_disjunct {inner? : Option (Reader Kind Condition)}
    (h : ∀ inner ∈ inner?, ∀ s, Blames Kind.Opens Kind.Calls inner s) (s : Stream Kind) :
    Blames Kind.Opens Kind.Calls (disjunct inner?) s := by
  have hconjunct : ∀ s, Blames Kind.Opens Kind.Calls
      (conjunction <$> separated .and (primary inner?)) s := fun s =>
    (blames_separated (blames_primary h) s).map conjunction
  exact (blames_separated hconjunct s).bind fun _ _ => blames_pure _

theorem blames_inside? (depth : Nat) :
    ∀ inner ∈ inside? depth, ∀ s, Blames Kind.Opens Kind.Calls inner s := by
  induction depth with
  | zero => exact fun _ h => by contradiction
  | succ depth ih =>
      intro inner hinner
      obtain rfl := Option.some.inj hinner
      exact blames_disjunct ih

theorem blames_read (s : Stream Kind) : Blames Kind.Opens Kind.Calls read s :=
  blames_whole (blames_disjunct (blames_inside? maxNesting) s)

/-- What is skipped is one character, or a word in some letter case. -/
theorem describes_of_skipped {c : Char} {rest : List Char} {why : AnomalyKind}
    (h : (nextPiece c rest).reading = .skipped why) (source : String) (a : Span) :
    why.Describes source a (String.ofList (nextPiece c rest).text) := by
  unfold nextPiece at h ⊢
  split_ifs at h ⊢ with hblank hvariable hquote hleft hright hword
  · contradiction
  · exact absurd h (variablePiece_ne_skipped why)
  · exact absurd h (literalPiece_ne_skipped why)
  · contradiction
  · contradiction
  · simp only [wordPiece, readWord] at h ⊢
    split_ifs at h
    obtain rfl := Reading.skipped.inj h
    show String.lowercase _ = _
    rw [String.lowercase, String.toList_ofList]
  · obtain rfl := Reading.skipped.inj h
    rfl

theorem text_of_leftParen {c : Char} {rest : List Char}
    (h : (nextPiece c rest).reading.token? = some .leftParen) :
    String.ofList (nextPiece c rest).text = "(" := by
  unfold nextPiece at h ⊢
  split_ifs at h ⊢ with hblank hvariable hquote hleft hright hword
  · contradiction
  · obtain ⟨name, hname, -⟩ := isName_of_variablePiece h
    contradiction
  · rw [token?_literalPiece] at h
    cases Option.some.inj h
  · rw [hleft]
    rfl
  · cases Option.some.inj h
  · rcases token?_readWord h with h | h | ⟨word, h⟩ <;> contradiction
  · contradiction

/-- What the pieces of a condition say about their texts. -/
theorem diagnosed : Diagnosed nextPiece Kind.Opens Kind.Calls (· = "(") where
  toLawfulCut := lawfulCut
  text_eof := rfl
  isEof_eof := rfl
  not_opens_eof := by simp [Kind.Opens, TokenKind.eof]
  not_calls_eof _ := id
  describes c rest why source a h := describes_of_skipped h source a
  opening c rest k h hopens := text_of_leftParen (hopens ▸ h)
  name _ _ _ _ _ hcalls := hcalls.elim

end Condition

/-! ## Value expressions -/

namespace Expr

open Reader

/-- Groups start with a parenthesis, and calls with the name of a function. -/
def Kind.Opens (k : Kind) : Prop :=
  k = .leftParen ∨ ∃ name f, k = .ident name ∧ Function.ofName? name = some f

/-- A name is the name of a call. -/
def Kind.Calls (k : Kind) (name : String) : Prop := k = .ident name

/-- The texts that start a group or a call. -/
def Opening (text : String) : Prop :=
  text = "(" ∨ text.lowercase = "if" ∨ text.lowercase = "replaceall"

/-- The readers for what stands inside a group or a call blame tokens only. -/
structure Inside.Blames (inside : Inside) : Prop where
  expression (s : Stream Kind) : Reader.Blames Kind.Opens Kind.Calls inside.expression s
  operand (s : Stream Kind) : Reader.Blames Kind.Opens Kind.Calls inside.operand s

section
variable {inside : Inside} (h : inside.Blames) {inside? : Option Inside}
  (h? : ∀ inside ∈ inside?, inside.Blames) (s : Stream Kind)

include h in
theorem blames_group : Blames Kind.Opens Kind.Calls (group inside) s :=
  blames_advance_bind fun s' => (h.expression s').bind fun _ _ =>
    (blames_close _).bind fun _ _ => blames_pure _

include h in
theorem blames_test : Blames Kind.Opens Kind.Calls (test inside) s := by
  have hoperands : ∀ s', Blames Kind.Opens Kind.Calls (do
      let left ← inside.operand
      expect .is .is
      return .is left (← inside.operand) : Reader Kind Test) s' := fun s' =>
    (h.operand s').bind fun _ _ => (blames_expect .is .is).bind fun _ s'' =>
      (h.operand s'').bind fun _ _ => blames_pure _
  refine blames_peek_bind ?_
  split
  · exact blames_advance_bind fun _ => blames_pure _
  · exact hoperands s

include h in
theorem blames_ifCall : Blames Kind.Opens Kind.Calls (ifCall inside) s :=
  blames_advance_bind fun _ => (blames_expect .leftParen _).bind fun _ s =>
    (blames_test h s).bind fun _ _ => (blames_expect .comma _).bind fun _ s =>
      (h.expression s).bind fun _ _ => (blames_expect .comma _).bind fun _ s =>
        (h.expression s).bind fun _ _ => (blames_close _).bind fun _ _ => blames_pure _

include h in
theorem blames_replaceCall : Blames Kind.Opens Kind.Calls (replaceCall inside) s :=
  blames_advance_bind fun _ => (blames_expect .leftParen _).bind fun _ s =>
    (h.expression s).bind fun _ _ => (blames_expect .comma _).bind fun _ s =>
      (h.expression s).bind fun _ _ => (blames_expect .comma _).bind fun _ s =>
        (h.expression s).bind fun _ _ => (blames_close _).bind fun _ _ => blames_pure _

include h? in
theorem blames_simple (wanted : Wanted) :
    Blames Kind.Opens Kind.Calls (simple inside? wanted) s := by
  refine blames_peek_bind ?_
  cases hk : s.current.kind with
  | leftParen => exact blames_nested (.inl hk) fun inside hi => blames_group (h? inside hi) s
  | text | bool | var => exact blames_advance_bind fun _ => blames_pure _
  | _ => exact blames_unexpected wanted

include h? in
theorem blames_term : Blames Kind.Opens Kind.Calls (term inside?) s := by
  refine blames_peek_bind ?_
  cases hk : s.current.kind with
  | ident name =>
      dsimp only
      cases hf : Function.ofName? name with
      | none => exact blames_fail (.unknown hk)
      | some f =>
          have hopens : s.current.kind.Opens := .inr ⟨name, f, hk, hf⟩
          cases f with
          | ifElse => exact blames_nested hopens fun inside hi => blames_ifCall (h? inside hi) s
          | replaceAll =>
              exact blames_nested hopens fun inside hi => blames_replaceCall (h? inside hi) s
  | _ => exact blames_simple h? s .value

include h? in
theorem blames_operand : Blames Kind.Opens Kind.Calls (operand inside?) s := by
  refine blames_peek_bind ?_
  cases hk : s.current.kind with
  | ident name =>
      dsimp only
      cases hf : Function.ofName? name with
      | none => exact blames_fail (.unknown hk)
      | some f =>
          have hopens : s.current.kind.Opens := .inr ⟨name, f, hk, hf⟩
          cases f with
          | ifElse => exact blames_unexpected .operandNotIf
          | replaceAll =>
              exact blames_nested hopens fun inside hi => blames_replaceCall (h? inside hi) s
  | _ => exact blames_simple h? s .operand

include h? in
theorem blames_expression : Blames Kind.Opens Kind.Calls (expression inside?) s :=
  (blames_separated (blames_term h?) s).map join

end

theorem blames_inside? (depth : Nat) : ∀ inside ∈ inside? depth, inside.Blames := by
  induction depth with
  | zero => exact fun _ h => by contradiction
  | succ depth ih =>
      intro inside hinside
      obtain rfl := Option.some.inj hinside
      exact ⟨blames_expression ih, blames_operand ih⟩

theorem blames_read (s : Stream Kind) : Blames Kind.Opens Kind.Calls read s :=
  blames_whole (blames_expression (blames_inside? maxNesting) s)

/-- What is skipped is one character. -/
theorem describes_of_skipped {c : Char} {rest : List Char} {why : AnomalyKind}
    (h : (nextPiece c rest).reading = .skipped why) (source : String) (a : Span) :
    why.Describes source a (String.ofList (nextPiece c rest).text) := by
  rcases nextPiece_cases c with ⟨-, hnext⟩ | ⟨-, hnext⟩ | ⟨-, hnext⟩ | ⟨k, -, hnext⟩ |
    ⟨-, hnext⟩ | ⟨-, hnext⟩
  · rw [hnext] at h
    contradiction
  · rw [hnext] at h
    exact absurd h (variablePiece_ne_skipped why)
  · rw [hnext] at h
    exact absurd h (literalPiece_ne_skipped why)
  · rw [hnext] at h
    contradiction
  · rw [hnext] at h
    simp only [wordPiece, readName] at h
    split_ifs at h
  · rw [hnext] at h ⊢
    obtain rfl := Reading.skipped.inj h
    rfl

theorem text_of_leftParen {c : Char} {rest : List Char}
    (h : (nextPiece c rest).reading.token? = some .leftParen) :
    String.ofList (nextPiece c rest).text = "(" := by
  rcases nextPiece_of_token? h with ⟨-, hnext⟩ | ⟨-, hnext⟩ | ⟨hmark, hnext⟩ | ⟨-, hnext⟩
  · rw [hnext] at h
    obtain ⟨name, hname, -⟩ := isName_of_variablePiece h
    contradiction
  · rw [hnext, token?_literalPiece] at h
    cases Option.some.inj h
  · rw [hnext]
    obtain rfl : c = '(' := by simpa [spelledAlone] using hmark
    rfl
  · rw [hnext] at h
    rcases token?_readName h with ⟨b, h⟩ | h | ⟨name, h⟩ <;> contradiction

/-- A name is kept as it is spelled. -/
theorem text_of_ident {c : Char} {rest : List Char} {name : String}
    (h : (nextPiece c rest).reading.token? = some (.ident name)) :
    String.ofList (nextPiece c rest).text = name := by
  rcases nextPiece_of_token? h with ⟨-, hnext⟩ | ⟨-, hnext⟩ | ⟨hmark, -⟩ | ⟨-, hnext⟩
  · rw [hnext] at h
    obtain ⟨path, hpath, -⟩ := isName_of_variablePiece h
    contradiction
  · rw [hnext, token?_literalPiece] at h
    cases Option.some.inj h
  · simp [spelledAlone] at hmark
  · rw [hnext] at h ⊢
    simp only [wordPiece, readName] at h ⊢
    split_ifs at h
    · cases Option.some.inj h
    · cases Option.some.inj h
    · cases Option.some.inj h
    · exact Kind.ident.inj (Option.some.inj h)

theorem lowercase_of_ofName? {name : String} {f : Function}
    (h : Function.ofName? name = some f) :
    name.lowercase = "if" ∨ name.lowercase = "replaceall" := by
  unfold Function.ofName? at h
  split_ifs at h with hif hreplace
  · exact .inl hif
  · exact .inr hreplace

/-- What the pieces of a value expression say about their texts. -/
theorem diagnosed : Diagnosed nextPiece Kind.Opens Kind.Calls Opening where
  toLawfulCut := lawfulCut
  text_eof := rfl
  isEof_eof := rfl
  not_opens_eof := by simp [Kind.Opens, TokenKind.eof]
  not_calls_eof _ := by simp [Kind.Calls, TokenKind.eof]
  describes c rest why source a h := describes_of_skipped h source a
  opening c rest k h hopens := by
    rcases hopens with rfl | ⟨name, f, rfl, hf⟩
    · exact .inl (text_of_leftParen h)
    · rw [text_of_ident h]
      exact .inr (lowercase_of_ofName? hf)
  name c rest k name h hcalls := text_of_ident (hcalls ▸ h)

end Expr

/-! ## Both languages -/

/-- Every diagnostic points at what it names: it keeps the source, its span cuts a
text out of it, and that text is the one that the cause is about. -/
theorem diagnostics_point (source : String) (strict : Bool) (e : SourceFault) :
    (parseCondition source strict = .error e →
      e.source = source ∧ e.fault.Points Condition.lex (· = "(") source) ∧
    (parseExpr source strict = .error e →
      e.source = source ∧ e.fault.Points Expr.lex Expr.Opening source) := by
  constructor
  · exact parseWith_points Condition.diagnosed Condition.blames_read
  · exact parseWith_points Expr.diagnosed Expr.blames_read

/-- Behind a character of two bytes, the span of a name and that of a word are counted
in bytes. -/
theorem diagnostics_point_after_accent :
    (parseExpr "'é' + foo('b')" false = .error ⟨"'é' + foo('b')",
        .unknownFunction "foo" Function.names, ⟨1, 7, 7, 3⟩⟩ ∧
      Fault.Points Expr.lex Expr.Opening "'é' + foo('b')"
        ⟨.unknownFunction "foo" Function.names, ⟨1, 7, 7, 3⟩⟩) ∧
    (parseCondition "\x7bé\x7d = 'x'" true = .error ⟨"\x7bé\x7d = 'x'",
        .unrecognizedInput (.unknownWord "=") Condition.keywords, ⟨1, 5, 5, 1⟩⟩ ∧
      Fault.Points Condition.lex (· = "(") "\x7bé\x7d = 'x'"
        ⟨.unrecognizedInput (.unknownWord "=") Condition.keywords, ⟨1, 5, 5, 1⟩⟩) := by
  have hname : parseExpr "'é' + foo('b')" false = .error ⟨"'é' + foo('b')",
      .unknownFunction "foo" Function.names, ⟨1, 7, 7, 3⟩⟩ := by decide +kernel
  have hword : parseCondition "\x7bé\x7d = 'x'" true = .error ⟨"\x7bé\x7d = 'x'",
      .unrecognizedInput (.unknownWord "=") Condition.keywords, ⟨1, 5, 5, 1⟩⟩ := rfl
  exact ⟨⟨hname, ((diagnostics_point _ _ _).2 hname).2⟩,
    hword, ((diagnostics_point _ _ _).1 hword).2⟩

end FormLogic
