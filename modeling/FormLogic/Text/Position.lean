/-!
# FormLogic.Text.Position

Places in a source text. A `Position` counts lines and columns from 1 and
bytes of UTF-8 from 0; a column counts characters, and only a line feed starts
a new line. A `Span` is a position with the length of the text that starts
there.
-/

namespace FormLogic.Text

/-- A place between two characters of a source text. -/
structure Position where
  line : Nat
  column : Nat
  offset : Nat
deriving DecidableEq, Repr

/-- The place in front of the first character. -/
def Position.start : Position := ⟨1, 1, 0⟩

/-- The place behind the character `c` that stands at `p`. -/
def Position.next (p : Position) (c : Char) : Position :=
  if c = '\n' then ⟨p.line + 1, 1, p.offset + c.utf8Size⟩
  else ⟨p.line, p.column + 1, p.offset + c.utf8Size⟩

/-- The place behind the text `s` that starts at `p`. -/
def Position.after (p : Position) (s : List Char) : Position :=
  s.foldl Position.next p

@[simp] theorem Position.after_nil (p : Position) : p.after [] = p := rfl

@[simp] theorem Position.after_cons (p : Position) (c : Char) (s : List Char) :
    p.after (c :: s) = (p.next c).after s := rfl

@[simp] theorem Position.after_append (p : Position) (s t : List Char) :
    p.after (s ++ t) = (p.after s).after t :=
  List.foldl_append

/-- The number of bytes of a text in UTF-8. -/
def byteLength : List Char → Nat
  | [] => 0
  | c :: s => c.utf8Size + byteLength s

@[simp] theorem byteLength_nil : byteLength [] = 0 := rfl

@[simp] theorem byteLength_cons (c : Char) (s : List Char) :
    byteLength (c :: s) = c.utf8Size + byteLength s := rfl

@[simp] theorem byteLength_append (s t : List Char) :
    byteLength (s ++ t) = byteLength s + byteLength t := by
  induction s with
  | nil => simp
  | cons c s ih => simp [ih, Nat.add_assoc]

/-- A stretch of source text: where it starts and how many bytes it holds. -/
structure Span where
  line : Nat
  column : Nat
  offset : Nat
  length : Nat
deriving DecidableEq, Repr

/-- The span of the text `s` that starts at `p`. -/
def Position.span (p : Position) (s : List Char) : Span :=
  ⟨p.line, p.column, p.offset, byteLength s⟩

/-- The empty span behind the last character of a source text. -/
def endSpan (source : List Char) : Span :=
  (Position.start.after source).span []

/-- The characters behind the last line feed of a text. -/
def lastLine (s : List Char) : List Char :=
  (s.reverse.takeWhile (· != '\n')).reverse

/-- The line that stands behind a text, by the line feeds in it. -/
def lineBehind (s : List Char) : Nat :=
  s.count '\n' + 1

/-- The column behind a text, by the characters of its last line. -/
def columnBehind (s : List Char) : Nat :=
  (lastLine s).length + 1

/-- The empty span behind a source text, by counting what stands in the text. -/
def endOf (source : List Char) : Span :=
  ⟨lineBehind source, columnBehind source, byteLength source, 0⟩

/-- From the start of `a` to the end of `b`; empty if `b` ends first. -/
def Span.to (a b : Span) : Span :=
  { a with length := b.offset + b.length - a.offset }

/-- The place of a span as diagnostics write it. -/
def Span.place (a : Span) : String :=
  "<expr>:" ++ toString a.line ++ ":" ++ toString a.column

end FormLogic.Text
