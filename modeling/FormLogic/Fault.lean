import FormLogic.Lexeme
import FormLogic.Text.Similar

/-!
# FormLogic.Fault

What can be wrong with an expression. A `Fault` is a cause with the span it
points at; the wording of every cause stands here and nowhere else.
-/

namespace FormLogic

open Text

/-- The functions of the value language. -/
inductive Function where
  | ifElse
  | replaceAll
deriving DecidableEq, Repr

/-- A function's name as documents spell it. -/
def Function.name : Function → String
  | .ifElse => "if"
  | .replaceAll => "replaceAll"

/-- The names of all functions. -/
def Function.names : List String :=
  [Function.ifElse.name, Function.replaceAll.name]

/-- How a function is called. -/
def Function.usage : Function → String
  | .ifElse => "call it like if(test, then, otherwise)"
  | .replaceAll => "call it like replaceAll(value, search, replacement)"

/-- What the arguments of a function are. -/
def Function.arguments : Function → String
  | .ifElse => "if takes a test, a then value and an otherwise value"
  | .replaceAll => "replaceAll takes a value, a search string and a replacement"

/-- What stands where another token was wanted. -/
inductive Wanted where
  /-- A connective between comparisons, or the end of the condition. -/
  | connective
  | variable
  | operator
  | literal
  | closing
  /-- A `+`, or the end of the expression. -/
  | plus
  | value
  | operand
  /-- An operand where a call of `if` stands. -/
  | operandNotIf
  | opening (f : Function)
  | comma (f : Function)
  | is
deriving DecidableEq, Repr

/-- The name of what is wanted. -/
def Wanted.text : Wanted → String
  | .connective => "'and', 'or' or end of input"
  | .variable => "variable reference"
  | .operator => "comparison operator"
  | .literal => "string literal"
  | .closing => "')'"
  | .plus => "'+' or end of input"
  | .value => "a string, boolean, variable, function call or '('"
  | .operand => "an operand"
  | .operandNotIf => "an operand"
  | .opening _ => "'('"
  | .comma _ => "','"
  | .is => "'is'"

/-- How to mend what is wanted. -/
def Wanted.help : Wanted → String
  | .connective => "join comparisons with 'and' or 'or'"
  | .variable => "a comparison starts with a field reference like \x7bfieldName\x7d"
  | .operator => "use icontains, noticontains, contains, equals (==) or notequals (!=)"
  | .literal => "compare against a single-quoted value like 'yes'"
  | .closing => "close the parenthesis"
  | .plus => "join values with '+'"
  | .value => "values are quoted strings, \x7bfields\x7d or function calls"
  | .operand => "values are quoted strings, \x7bfields\x7d or function calls"
  | .operandNotIf => "if cannot be compared directly; wrap the values instead"
  | .opening f => f.usage
  | .comma f => f.arguments
  | .is => "compare two values with 'is', e.g. \x7ba\x7d is 'yes'"

/-- Why an expression is refused. -/
inductive Cause where
  /-- A token that cannot stand where it does. -/
  | unexpectedToken (wanted : Wanted) (found : String)
  /-- Source text that is no part of any token, where none is allowed. -/
  | unrecognizedInput (why : AnomalyKind) (known : List String)
  | unknownFunction (name : String) (known : List String)
  /-- More than `limit` groups and calls inside one another. -/
  | nestingTooDeep (limit : Nat)
deriving DecidableEq, Repr

/-- A cause with the place it points at. -/
structure Fault where
  cause : Cause
  span : Span
deriving DecidableEq, Repr

/-! ## Wording -/

/-- The name of what is out of place. -/
def AnomalyKind.text : AnomalyKind → String
  | .unknownWord word => "unknown word '" ++ word ++ "'"
  | .unexpectedCharacter c => "unexpected character '" ++ c.toString ++ "'"
  | .unterminatedString => "unterminated string"
  | .unterminatedVariable => "unterminated variable"

/-- How to mend what is out of place, where `known` are the words of the
language. -/
def AnomalyKind.help (known : List String) : AnomalyKind → String
  | .unknownWord word => suggestionHelp word known
  | .unexpectedCharacter _ =>
    "remove the character or quote it inside a string literal"
  | .unterminatedString => "add the closing quote"
  | .unterminatedVariable => "add the closing '\x7d'"

/-- The kind of a cause in a few words. -/
def Cause.title : Cause → String
  | .unexpectedToken .. => "unexpected token"
  | .unrecognizedInput .. => "unrecognized input"
  | .unknownFunction .. => "unknown function"
  | .nestingTooDeep _ => "maximum nesting depth exceeded"

/-- A cause in one line. -/
def Cause.message : Cause → String
  | .unexpectedToken wanted found =>
    "unexpected token: expected " ++ wanted.text ++ ", found " ++ found
  | .unrecognizedInput why _ => "unrecognized input: " ++ why.text
  | .unknownFunction name _ => "unknown function: '" ++ name ++ "'"
  | .nestingTooDeep _ => "maximum nesting depth exceeded"

/-- The note beside the source text a cause points at. -/
def Cause.label : Cause → String
  | .unexpectedToken wanted found => "expected " ++ wanted.text ++ ", found " ++ found
  | .unrecognizedInput why _ => why.text
  | .unknownFunction name _ => "'" ++ name ++ "' is not a function"
  | .nestingTooDeep _ => "nesting too deep here"

/-- How to mend a cause. -/
def Cause.help : Cause → String
  | .unexpectedToken wanted _ => wanted.help
  | .unrecognizedInput why known => why.help known
  | .unknownFunction name known => suggestionHelp name known
  | .nestingTooDeep limit => "nesting exceeds the maximum depth of " ++ toString limit

/-- The code of a cause. -/
def Cause.code : Cause → String
  | .unexpectedToken .. => "E0001"
  | .unrecognizedInput .. => "E0006"
  | .unknownFunction .. => "E0603"
  | .nestingTooDeep _ => "E0403"

/-! ## Warnings -/

/-- An anomaly that was skipped, as it is reported. -/
structure Warning where
  message : String
  line : Nat
  column : Nat
deriving DecidableEq, Repr

/-- What a skipped anomaly is reported as. -/
def AnomalyKind.warning : AnomalyKind → String
  | .unknownWord word => "ignored unknown word '" ++ word ++ "'"
  | .unexpectedCharacter c => "ignored unexpected character '" ++ c.toString ++ "'"
  | .unterminatedString => "string literal is never closed"
  | .unterminatedVariable => "variable reference is never closed"

/-- The report of an anomaly. -/
def Anomaly.warning (a : Anomaly) : Warning :=
  ⟨a.kind.warning, a.span.line, a.span.column⟩

end FormLogic
