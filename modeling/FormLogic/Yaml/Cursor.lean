/-!
# FormLogic.Yaml.Cursor

A place in a YAML text: what is still to be read, and the line, the column and
the number of characters in front of it. A line ends at a line feed, a carriage
return or both, and at the three line separators beyond ASCII.
-/

namespace FormLogic.Yaml

/-- Whether the character ends a line. -/
def isBreak (c : Char) : Bool :=
  c == '\n' || c == '\r' || c.toNat == 0x85 || c.toNat == 0x2028 || c.toNat == 0x2029

/-- Whether the character separates words of a line. -/
def isBlank (c : Char) : Bool :=
  c == ' ' || c == '\t'

/-- Whether the text starts with a blank or a line end, or is over. -/
def startsBlank : List Char → Bool
  | [] => true
  | c :: _ => isBlank c || isBreak c

/-- Whether the text starts with a line end, or is over. -/
def startsBreak : List Char → Bool
  | [] => true
  | c :: _ => isBreak c

/-- A character that YAML texts may hold. -/
def isAllowed (c : Char) : Bool :=
  let n := c.toNat
  n == 0x09 || n == 0x0A || n == 0x0D || (0x20 ≤ n && n ≤ 0x7E) || n == 0x85
    || (0xA0 ≤ n && n ≤ 0xD7FF) || (0xE000 ≤ n && n ≤ 0xFFFD) || 0x10000 ≤ n

/-- A place in a text. -/
structure Cursor where
  rest : List Char
  line : Nat
  column : Nat
  index : Nat

namespace Cursor

/-- The place in front of a text. -/
def start (s : List Char) : Cursor := ⟨s, 0, 0, 0⟩

/-- The next character. -/
def head? (c : Cursor) : Option Char := c.rest.head?

/-- The place behind the next character. -/
def skip (c : Cursor) : Cursor :=
  match c.rest with
  | [] => c
  | _ :: rest => { c with rest, column := c.column + 1, index := c.index + 1 }

/-- The place `n` characters further on. -/
def skipMany (c : Cursor) (n : Nat) : Cursor :=
  { c with rest := c.rest.drop n, column := c.column + n, index := c.index + n }

/-- The line end in front, as it counts in a scalar, and the place behind it. -/
def takeBreak (c : Cursor) : List Char × Cursor :=
  match c.rest with
  | '\r' :: '\n' :: rest => (['\n'], ⟨rest, c.line + 1, 0, c.index + 2⟩)
  | b :: rest =>
    (if b.toNat = 0x2028 ∨ b.toNat = 0x2029 then [b] else ['\n'],
      ⟨rest, c.line + 1, 0, c.index + 1⟩)
  | [] => ([], c)

/-- The characters in front for which `p` holds, and the place behind them. -/
def takeWhile (p : Char → Bool) (c : Cursor) : List Char × Cursor :=
  let taken := c.rest.takeWhile p
  (taken, c.skipMany taken.length)

/-- Whether a document marker made of three times `mark` stands here. -/
def atMarker (mark : Char) (c : Cursor) : Bool :=
  c.column == 0 && [mark, mark, mark].isPrefixOf c.rest && startsBlank (c.rest.drop 3)

/-- Whether a document marker stands here. -/
def atAnyMarker (c : Cursor) : Bool :=
  c.atMarker '-' || c.atMarker '.'

end Cursor

/-! ## Gaps -/

/-- The blanks and line ends between two stretches of a scalar. -/
structure Gap where
  /-- The blanks, as long as no line has ended. -/
  blanks : List Char
  /-- Whether a line has ended. -/
  broken : Bool
  /-- The first line end. -/
  first : List Char
  /-- The line ends behind the first. -/
  more : List Char

/-- A gap of nothing. -/
def Gap.none : Gap := ⟨[], false, [], []⟩

/-- What a gap stands for between two stretches: its blanks, a blank for one
line end, and all line ends but the first for several. -/
def Gap.fold (g : Gap) : List Char :=
  if !g.broken then g.blanks
  else if g.first = ['\n'] then if g.more.isEmpty then [' '] else g.more
  else g.first ++ g.more

/-- Read on through a gap. Tabs that stand for indentation in front of column
`indent` are refused. -/
def readGap (indent : Nat) : (steps : Nat) → Gap → Cursor → Option (Gap × Cursor)
  | 0, g, c => some (g, c)
  | steps + 1, g, c =>
    match c.head? with
    | some x =>
      if isBlank x then
        if g.broken then
          if x = '\t' ∧ c.column < indent then Option.none else readGap indent steps g c.skip
        else readGap indent steps { g with blanks := g.blanks ++ [x] } c.skip
      else if isBreak x then
        let (b, c) := c.takeBreak
        if g.broken then readGap indent steps { g with more := g.more ++ b } c
        else readGap indent steps { g with broken := true, first := b } c
      else some (g, c)
    | Option.none => some (g, c)

end FormLogic.Yaml
