import FormLogic.Proofs.Blame
import FormLogic.Proofs.Lossless
import FormLogic.Proofs.Text.Position

/-!
# FormLogic.Proofs.Placement

The counters of a position agree. Line, column and byte offset of a span are
carried along piece by piece while a source is cut, and each of them is what
counting in the text in front of the span gives (`Span.IsExact`). The end of file
that a parser puts behind tokens without one is counted in this way, so taking it
off a lexed source and putting it back changes nothing (`Lexed.Placed`).
-/

namespace FormLogic

open Text

/-! ## Spans -/

/-- A span with the line and the column behind the text in front of its byte
offset. -/
def Text.Span.IsExact (source : List Char) (a : Span) : Prop :=
  ∃ before behind, source = before ++ behind ∧ byteLength before = a.offset ∧
    a.line = lineBehind before ∧ a.column = columnBehind before

theorem isExact_endOf (source : List Char) : (endOf source).IsExact source :=
  ⟨source, [], (List.append_nil source).symm, rfl, rfl, rfl⟩

/-- The span of a piece is exact in the text that the pieces are together. -/
theorem isExact_of_mem_located {κ : Type} {pieces : List (Piece κ)} {r : Reading κ} {a : Span}
    (h : (r, a) ∈ located .start pieces) : a.IsExact (pieces.flatMap (·.text)) := by
  obtain ⟨xs, x, ys, rfl, -, rfl⟩ := exists_of_mem_located h
  refine ⟨xs.flatMap (·.text), (x :: ys).flatMap (·.text), List.flatMap_append, ?_⟩
  rw [after_start]
  exact ⟨rfl, rfl, rfl⟩

/-! ## Streams -/

namespace Stream

variable {κ : Type} [TokenKind κ] {source : String} {tokens : List (Token κ)}
  (h : ∀ t ∈ tokens, TokenKind.isEof t.kind = false)
include h

/-- Tokens in front of any end of file stand ahead of what is behind them. -/
theorem ofTokens_append (more : List (Token κ)) :
    ofTokens source (tokens ++ more) =
      ⟨tokens ++ (ofTokens source more).ahead, (ofTokens source more).last⟩ := by
  have hahead : (tokens ++ more).takeWhile (fun t => !TokenKind.isEof t.kind) =
      tokens ++ more.takeWhile fun t => !TokenKind.isEof t.kind :=
    List.takeWhile_append_of_pos fun t ht => by simp [h t ht]
  have hnone : tokens.find? (fun t => TokenKind.isEof t.kind) = none :=
    List.find?_eq_none.mpr fun t ht => by simp [h t ht]
  rw [ofTokens, hahead, List.find?_append, hnone]
  rfl

/-- Tokens without an end of file are read as if one stood behind the source. -/
theorem ofTokens_of_not_isEof :
    ofTokens source tokens = ⟨tokens, ⟨TokenKind.eof, endOf source.toList⟩⟩ := by
  rw [← List.append_nil tokens, ofTokens_append h]
  simp [ofTokens]

/-- Tokens that end in their only end of file are the whole stream. -/
theorem ofTokens_concat {last : Token κ} (hlast : TokenKind.isEof last.kind = true) :
    ofTokens source (tokens ++ [last]) = ⟨tokens, last⟩ := by
  rw [ofTokens_append h]
  simp [ofTokens, hlast]

end Stream

/-! ## Lexed sources -/

variable {κ : Type} [TokenKind κ]

/-- A source text whose tokens and anomalies stand where they say. -/
structure Lexed.Placed (source : String) (l : Lexed κ) : Prop where
  tokens : ∀ t ∈ l.tokens, t.span.IsExact source.toList
  anomalies : ∀ a ∈ l.anomalies, a.span.IsExact source.toList
  ends : l.tokens.getLast? = some ⟨TokenKind.eof, endOf source.toList⟩
  /-- What is left without the end of file is read as the same tokens again. -/
  restored : (Stream.ofTokens source l.tokens.dropLast).tokens = l.tokens
  resumed : Stream.ofTokens source l.tokens.dropLast = Stream.ofTokens source l.tokens

/-- What a lawful language reads off a text stands where it says. -/
theorem placed_lexWith [LawfulTokenKind κ] {next : Char → List Char → Piece κ}
    (h : LawfulCut next) (source : String) : (lexWith next source.toList).Placed source := by
  have htokens : (lexWith next source.toList).tokens =
      tokensOf (cut next source.toList) ++ [⟨TokenKind.eof, endOf source.toList⟩] := by
    rw [endOf_eq_endSpan]
    rfl
  have hexact : ∀ {r a}, (r, a) ∈ located .start (cut next source.toList) →
      a.IsExact source.toList := by
    intro r a hmem
    have hpieces := isExact_of_mem_located hmem
    rwa [flatMap_text_cut h] at hpieces
  have hahead : ∀ t ∈ tokensOf (cut next source.toList), TokenKind.isEof t.kind = false :=
    fun t => isEof_of_mem_tokensOf h source.toList
  have hpart : Stream.ofTokens source (tokensOf (cut next source.toList)) =
      ⟨tokensOf (cut next source.toList), ⟨TokenKind.eof, endOf source.toList⟩⟩ :=
    Stream.ofTokens_of_not_isEof hahead
  refine ⟨fun t ht => ?_, fun a ha => ?_, ?_, ?_, ?_⟩
  · rw [htokens] at ht
    rcases List.mem_append.mp ht with ht | ht
    · obtain ⟨r, hmem, -⟩ := exists_of_mem_tokensOf ht
      exact hexact hmem
    · obtain rfl := List.mem_singleton.mp ht
      exact isExact_endOf source.toList
  · obtain ⟨r, hmem, -⟩ := exists_of_mem_anomaliesOf ha
    exact hexact hmem
  · rw [htokens, List.getLast?_concat]
  · rw [htokens, List.dropLast_concat, hpart]
    rfl
  · rw [htokens, List.dropLast_concat, hpart,
      Stream.ofTokens_concat hahead ((isEof_iff _).mpr rfl)]

/-- Tokens and anomalies of both languages stand where they say. -/
theorem placed_lex (source : String) :
    (Condition.lex source).Placed source ∧ (Expr.lex source).Placed source :=
  ⟨placed_lexWith Condition.lawfulCut source, placed_lexWith Expr.lawfulCut source⟩

end FormLogic
