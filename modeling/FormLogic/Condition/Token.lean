import FormLogic.Lexeme.Bracket
import FormLogic.Text.Case

/-!
# FormLogic.Condition.Token

The tokens of the condition language:

    {employment} icontains 'unemployed' and ({age} != '' or {carer} equals 'yes')

Words hold ASCII letters, `_`, `!` and `=`, and are read in any letter case.
Literals stand in single quotes.
-/

namespace FormLogic.Condition

open Text

/-- The kinds of token of the condition language. -/
inductive Kind where
  /-- `{name}` -/
  | var (name : String)
  /-- `'text'` -/
  | text (s : String)
  /-- A word that compares, in small letters. -/
  | op (word : String)
  | and
  | or
  | leftParen
  | rightParen
  | eof
deriving DecidableEq, Repr

/-- A kind of token as diagnostics write it. -/
def Kind.render : Kind → String
  | .var name => "\x7b" ++ name ++ "\x7d"
  | .text s => String.ofList (quoted s.toList)
  | .op word => word
  | .and => "and"
  | .or => "or"
  | .leftParen => "("
  | .rightParen => ")"
  | .eof => "<eof>"

instance : TokenKind Kind where
  eof := .eof
  isEof kind := kind == .eof
  text := Kind.render

/-- The words that compare. -/
def operatorWords : List String :=
  ["icontains", "noticontains", "contains", "equals", "notequals", "==", "!="]

/-- The words that diagnostics suggest. -/
def keywords : List String :=
  ["and", "or", "icontains", "noticontains", "contains", "equals", "notequals"]

/-- Whether a word may hold the character. -/
def isWordChar (c : Char) : Bool :=
  c.isAlpha || c == '_' || c == '!' || c == '='

/-- What a bare word is read as. -/
def readWord (word : List Char) : Reading Kind :=
  let word := String.ofList (lowercase word)
  if word = "and" then .token .and
  else if word = "or" then .token .or
  else if word ∈ operatorWords then .token (.op word)
  else .skipped (.unknownWord word)

/-- The piece that starts with `c`. -/
def nextPiece (c : Char) (rest : List Char) : Piece Kind :=
  if isBlank c then charPiece c .blank
  else if c = '{' then variablePiece .var rest
  else if c = '\'' then literalPiece .text '\'' rest
  else if c = '(' then charPiece c (.token .leftParen)
  else if c = ')' then charPiece c (.token .rightParen)
  else if isWordChar c then wordPiece isWordChar readWord c rest
  else charPiece c (.skipped (.unexpectedCharacter c))

/-- Read the tokens of a condition. -/
def lex (source : String) : Lexed Kind :=
  lexWith nextPiece source.toList

end FormLogic.Condition
