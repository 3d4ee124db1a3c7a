import FormLogic.Fault

/-!
# FormLogic.Stream

Reading a stream of tokens from the front. A stream ends at its first end of
file; a list of tokens that has none is read as if one stood behind the source
text. A `Reader` takes tokens off a stream or fails with a fault. Readers come
with the nesting they still allow: `nested` spends one level and fails when none
is left, so no input makes a reader recurse further.
-/

namespace FormLogic

open Text

/-- The greatest number of groups and calls inside one another. -/
def maxNesting : Nat := 64

/-- What is left of a stream: the tokens ahead, and the one that ends it. -/
structure Stream (κ : Type) where
  ahead : List (Token κ)
  last : Token κ
deriving Repr

/-- The stream of a list of tokens over a source text. -/
def Stream.ofTokens {κ : Type} [TokenKind κ] (source : String) (tokens : List (Token κ)) :
    Stream κ where
  ahead := tokens.takeWhile fun t => !TokenKind.isEof t.kind
  last := (tokens.find? fun t => TokenKind.isEof t.kind).getD
    ⟨TokenKind.eof, endOf source.toList⟩

/-- The token in front. -/
def Stream.current {κ : Type} (s : Stream κ) : Token κ :=
  s.ahead.headD s.last

/-- The stream behind the token in front. -/
def Stream.next {κ : Type} (s : Stream κ) : Stream κ :=
  { s with ahead := s.ahead.tail }

/-- A reader of tokens. -/
abbrev Reader (κ α : Type) := StateT (Stream κ) (Except Fault) α

namespace Reader

variable {κ α : Type} [TokenKind κ]

/-- The kind of the token in front. -/
def peek : Reader κ κ :=
  return (← get).current.kind

/-- Take the token in front. -/
def advance : Reader κ Unit :=
  modify Stream.next

/-- Fail at the token in front. -/
def fail (cause : Cause) : Reader κ α := do
  throw ⟨cause, (← get).current.span⟩

/-- Fail because the token in front is not what is wanted. -/
def unexpected (wanted : Wanted) : Reader κ α := do
  fail (.unexpectedToken wanted (TokenKind.text (← peek)))

/-- Take a token of the given kind. -/
def expect [DecidableEq κ] (kind : κ) (wanted : Wanted) : Reader κ Unit := do
  if (← peek) = kind then advance else unexpected wanted

/-- Take a closing parenthesis; at the end of the stream it may be missing. -/
def close [DecidableEq κ] (rightParen : κ) : Reader κ Unit := do
  let kind ← peek
  if kind = rightParen then advance
  else if TokenKind.isEof kind then pure ()
  else unexpected .closing

/-- Read with one level of nesting less, if one is left. The reader for the
level below is `none` at the innermost level. -/
def nested {β : Type} (below : Option β) (read : β → Reader κ α) : Reader κ α :=
  match below with
  | none => fail (.nestingTooDeep maxNesting)
  | some inner => read inner

/-- Read one more item behind each separator, at most `fuel` times. -/
def itemsAfter [DecidableEq κ] (separator : κ) (item : Reader κ α) :
    (fuel : Nat) → Reader κ (List α)
  | 0 => pure []
  | fuel + 1 => do
    if (← peek) = separator then
      advance
      let a ← item
      return a :: (← itemsAfter separator item fuel)
    else pure []

/-- Read one or more items with a separator between neighbours. Each separator
takes a token, so the number of tokens ahead bounds the number of items. -/
def separated [DecidableEq κ] (separator : κ) (item : Reader κ α) : Reader κ (List α) := do
  let a ← item
  return a :: (← itemsAfter separator item (← get).ahead.length)

/-- Read a whole stream: nothing may be left behind what `read` takes. -/
def whole (read : Reader κ α) (wanted : Wanted) : Reader κ α := do
  let a ← read
  if TokenKind.isEof (← peek) then pure a else unexpected wanted

end Reader

end FormLogic
