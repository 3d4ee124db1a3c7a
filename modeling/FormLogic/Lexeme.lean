import FormLogic.Text.Position

/-!
# FormLogic.Lexeme

Source text cut into pieces. Both expression languages cut their source in the
same way: from the front, piece by piece, where a piece is a blank, a token, or
something that makes no sense and is skipped. Nothing stops the cutting, and
the pieces together are the source. Tokens and anomalies are two views of the
pieces, and each carries the span of the piece it comes from.
-/

namespace FormLogic

open Text

/-! ## Tokens and anomalies -/

/-- A token with the place it stands at. -/
structure Token (κ : Type) where
  kind : κ
  span : Span
deriving DecidableEq, Repr

/-- What the kinds of token of a language have in common. -/
class TokenKind (κ : Type) where
  /-- The kind that ends every stream of tokens. -/
  eof : κ
  /-- Whether a kind ends the stream. -/
  isEof : κ → Bool
  /-- A kind as diagnostics write it. -/
  text : κ → String

/-- A token as diagnostics write it. -/
def Token.text {κ : Type} [TokenKind κ] (t : Token κ) : String :=
  TokenKind.text t.kind ++ " at " ++ t.span.place

/-- Why a piece of source text is out of place. -/
inductive AnomalyKind where
  /-- A bare word that the language does not know. -/
  | unknownWord (word : String)
  /-- A character that no token starts with. -/
  | unexpectedCharacter (c : Char)
  /-- A string literal that is still open at the end of the source. -/
  | unterminatedString
  /-- A `{` that is still open at the end of the source. -/
  | unterminatedVariable
deriving DecidableEq, Repr

/-- An anomaly with the place it stands at. -/
structure Anomaly where
  kind : AnomalyKind
  span : Span
deriving DecidableEq, Repr

/-! ## Pieces -/

/-- What a piece of source text is read as. -/
inductive Reading (κ : Type) where
  | blank
  | token (kind : κ)
  /-- A token whose closing mark is missing. -/
  | openToken (kind : κ) (missing : AnomalyKind)
  | skipped (why : AnomalyKind)
deriving DecidableEq, Repr

/-- The token that a reading stands for. -/
def Reading.token? {κ : Type} : Reading κ → Option κ
  | .token kind => some kind
  | .openToken kind _ => some kind
  | _ => none

/-- The anomaly that a reading records. -/
def Reading.anomaly? {κ : Type} : Reading κ → Option AnomalyKind
  | .openToken _ missing => some missing
  | .skipped why => some why
  | _ => none

/-- A stretch of source text with its reading. -/
structure Piece (κ : Type) where
  text : List Char
  reading : Reading κ
deriving DecidableEq, Repr

/-- Cut a source into pieces, after passing over `skip` characters of the piece
just cut. `next c rest` is the piece that starts with `c`. -/
def cutAfter {κ : Type} (next : Char → List Char → Piece κ) :
    (skip : Nat) → List Char → List (Piece κ)
  | _, [] => []
  | skip + 1, _ :: rest => cutAfter next skip rest
  | 0, c :: rest =>
    let piece := next c rest
    piece :: cutAfter next (piece.text.length - 1) rest

/-- Cut a source into pieces. -/
def cut {κ : Type} (next : Char → List Char → Piece κ) (source : List Char) :
    List (Piece κ) :=
  cutAfter next 0 source

@[simp] theorem cut_nil {κ : Type} (next : Char → List Char → Piece κ) : cut next [] = [] := by
  simp [cut, cutAfter]

/-- Passing over characters is cutting what stands behind them. -/
theorem cutAfter_eq_cut {κ : Type} (next : Char → List Char → Piece κ) (skip : Nat)
    (source : List Char) : cutAfter next skip source = cut next (source.drop skip) := by
  induction skip generalizing source with
  | zero => rfl
  | succ skip ih =>
    cases source with
    | nil => simp [cutAfter]
    | cons c rest => simpa [cutAfter] using ih rest

/-- Cutting goes on behind the first piece. -/
theorem cut_cons {κ : Type} (next : Char → List Char → Piece κ) (c : Char) (rest : List Char) :
    cut next (c :: rest) =
      next c rest :: cut next (rest.drop ((next c rest).text.length - 1)) := by
  rw [← cutAfter_eq_cut, cut, cutAfter]

/-- The pieces with their spans, the first one starting at `p`. -/
def located {κ : Type} (p : Position) : List (Piece κ) → List (Reading κ × Span)
  | [] => []
  | piece :: pieces =>
    (piece.reading, p.span piece.text) :: located (p.after piece.text) pieces

/-! ## The two views -/

/-- A source text read by one of the languages: tokens that end in an end of
file, and what was out of place. -/
structure Lexed (κ : Type) where
  tokens : List (Token κ)
  anomalies : List Anomaly
deriving DecidableEq, Repr

/-- The tokens of the pieces that start at the front of a source. -/
def tokensOf {κ : Type} (pieces : List (Piece κ)) : List (Token κ) :=
  (located .start pieces).filterMap fun (r, span) => r.token?.map (⟨·, span⟩)

/-- The anomalies of the pieces that start at the front of a source. -/
def anomaliesOf {κ : Type} (pieces : List (Piece κ)) : List Anomaly :=
  (located .start pieces).filterMap fun (r, span) => r.anomaly?.map (⟨·, span⟩)

/-- Read a source text, given how its pieces start. -/
def lexWith {κ : Type} [TokenKind κ] (next : Char → List Char → Piece κ)
    (source : List Char) : Lexed κ :=
  let pieces := cut next source
  { tokens := tokensOf pieces ++ [⟨TokenKind.eof, endSpan source⟩]
    anomalies := anomaliesOf pieces }

end FormLogic
