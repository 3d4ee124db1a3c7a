import FormLogic.Lexeme
import FormLogic.Text.Blank
import FormLogic.Text.Quoted

/-!
# FormLogic.Lexeme.Bracket

The pieces that both languages share: variables in braces, quoted literals and
bare words.
-/

namespace FormLogic

open Text

/-- The piece that starts with `{`. Its name is what stands before the next
`}`, or before the end of the source, without blanks at its ends. -/
def variablePiece {κ : Type} (kind : String → κ) (rest : List Char) : Piece κ :=
  let inside := rest.takeWhile (· != '}')
  let name := String.ofList (trim inside)
  if '}' ∈ rest then
    ⟨'{' :: inside ++ ['}'], .token (kind name)⟩
  else ⟨'{' :: inside, .openToken (kind name) .unterminatedVariable⟩

/-- The piece that starts with the quote `q`. -/
def literalPiece {κ : Type} (kind : String → κ) (q : Char) (rest : List Char) : Piece κ :=
  let literal := readLiteral q rest
  let value := String.ofList literal.value
  ⟨q :: literal.source,
    if literal.closed then .token (kind value)
    else .openToken (kind value) .unterminatedString⟩

/-- The piece that starts with `c` and goes on as long as `p` holds, read by
its text. -/
def wordPiece {κ : Type} (p : Char → Bool) (read : List Char → Reading κ)
    (c : Char) (rest : List Char) : Piece κ :=
  let word := c :: rest.takeWhile p
  ⟨word, read word⟩

/-- A piece of one character. -/
def charPiece {κ : Type} (c : Char) (reading : Reading κ) : Piece κ :=
  ⟨[c], reading⟩

end FormLogic
