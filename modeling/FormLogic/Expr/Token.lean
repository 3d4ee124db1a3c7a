import FormLogic.Lexeme.Bracket
import FormLogic.Text.Case

/-!
# FormLogic.Expr.Token

The tokens of the value language:

    if({status} is 'unemployed', 'Jobseeker', 'Other')
    replaceAll({address:display}, ',', ' ') + ' (' + {postcode} + ')'

Names start with an ASCII letter or `_` and go on with letters, digits and `_`.
The names `true`, `false` and `is` are words of the language in any letter
case. Literals stand in single or double quotes.
-/

namespace FormLogic.Expr

open Text

/-- The kinds of token of the value language. -/
inductive Kind where
  /-- `{path/to:accessor}` -/
  | var (path : String)
  /-- `'text'` or `"text"` -/
  | text (s : String)
  | bool (b : Bool)
  /-- A name as it is spelled; only names of functions have a meaning. -/
  | ident (name : String)
  | is
  | comma
  | plus
  | leftParen
  | rightParen
  | eof
deriving DecidableEq, Repr

/-- A kind of token as diagnostics write it. -/
def Kind.render : Kind → String
  | .var path => "\x7b" ++ path ++ "\x7d"
  | .text s => String.ofList (quoted s.toList)
  | .bool b => toString b
  | .ident name => name
  | .is => "is"
  | .comma => ","
  | .plus => "+"
  | .leftParen => "("
  | .rightParen => ")"
  | .eof => "<eof>"

instance : TokenKind Kind where
  eof := .eof
  isEof kind := kind == .eof
  text := Kind.render

/-- Whether a name may start with the character. -/
def isNameStart (c : Char) : Bool :=
  c.isAlpha || c == '_'

/-- Whether a name may hold the character. -/
def isNameChar (c : Char) : Bool :=
  c.isAlphanum || c == '_'

/-- What a name is read as. -/
def readName (name : List Char) : Reading Kind :=
  let word := lowercase name
  if word = ['t', 'r', 'u', 'e'] then .token (.bool true)
  else if word = ['f', 'a', 'l', 's', 'e'] then .token (.bool false)
  else if word = ['i', 's'] then .token .is
  else .token (.ident (String.ofList name))

/-- The piece that starts with `c`. -/
def nextPiece (c : Char) (rest : List Char) : Piece Kind :=
  if isBlank c then charPiece c .blank
  else if c = '{' then variablePiece .var rest
  else if c = '\'' ∨ c = '"' then literalPiece .text c rest
  else if c = ',' then charPiece c (.token .comma)
  else if c = '+' then charPiece c (.token .plus)
  else if c = '(' then charPiece c (.token .leftParen)
  else if c = ')' then charPiece c (.token .rightParen)
  else if isNameStart c then wordPiece isNameChar readName c rest
  else charPiece c (.skipped (.unexpectedCharacter c))

/-- Read the tokens of a value expression. -/
def lex (source : String) : Lexed Kind :=
  lexWith nextPiece source.toList

end FormLogic.Expr
