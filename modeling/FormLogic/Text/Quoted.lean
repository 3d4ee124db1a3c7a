/-!
# FormLogic.Text.Quoted

Text between quotes. Inside, the quote is written twice or behind a backslash;
a backslash in front of any other character stands for itself. A literal that
never closes runs to the end of the source.
-/

namespace FormLogic.Text

/-- What a quoted literal is read as: the text it stands for, the source
characters it takes up, and whether its closing quote was found. -/
structure Literal where
  value : List Char
  source : List Char
  closed : Bool
deriving DecidableEq, Repr

/-- Put the source characters `source`, which stand for `value`, in front. -/
def Literal.push (l : Literal) (value source : List Char) : Literal :=
  { l with value := value ++ l.value, source := source ++ l.source }

/-- Read a literal from behind its opening quote `q`. -/
def readLiteral (q : Char) : List Char → Literal
  | [] => ⟨[], [], false⟩
  | [c] =>
    if c = q then ⟨[], [q], true⟩ else ⟨[c], [c], false⟩
  | c :: d :: rest =>
    if c = q then
      if d = q then (readLiteral q rest).push [q] [q, q] else ⟨[], [q], true⟩
    else if c = '\\' ∧ d = q then (readLiteral q rest).push [q] ['\\', q]
    else (readLiteral q (d :: rest)).push [c] [c]

/-- The text with every quote written twice. -/
def doubleQuotes (q : Char) (s : List Char) : List Char :=
  s.flatMap fun c => if c = q then [q, q] else [c]

/-- A text in single quotes, with the quotes inside it doubled. -/
def quoted (s : List Char) : List Char :=
  '\'' :: doubleQuotes '\'' s ++ ['\'']

end FormLogic.Text
