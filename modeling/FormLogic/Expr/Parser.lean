import FormLogic.Expr.Basic
import FormLogic.Expr.Token
import FormLogic.Stream

/-!
# FormLogic.Expr.Parser

Value expressions from tokens:

    expression := term ('+' term)*
    term       := TEXT | BOOL | VAR | call | '(' expression ')'
    call       := 'if' '(' test ',' expression ',' expression ')'
                | 'replaceAll' '(' expression ',' expression ',' expression ')'
    test       := BOOL | operand 'is' operand
    operand    := TEXT | BOOL | VAR | replaceAll-call | '(' expression ')'

Names of functions are read in any letter case. A run of `+` is one flat node.
-/

namespace FormLogic

/-- The function that a name calls. -/
def Function.ofName? (name : String) : Option Function :=
  if name.lowercase = "if" then some .ifElse
  else if name.lowercase = "replaceall" then some .replaceAll
  else none

namespace Expr

open Reader

/-- The readers for what stands inside a group or a call. -/
structure Inside where
  expression : Reader Kind Expr
  operand : Reader Kind Expr

/-- Read the rest of a group. -/
def group (inside : Inside) : Reader Kind Expr := do
  advance
  let e ← inside.expression
  close .rightParen
  return e

/-- Read a literal, a variable or a group. -/
def simple (inside? : Option Inside) (wanted : Wanted) : Reader Kind Expr := do
  match ← peek with
  | .leftParen => nested inside? group
  | .text s => advance; return .text s
  | .bool b => advance; return .bool b
  | .var raw => advance; return .var (Path.ofText raw)
  | _ => unexpected wanted

/-- Read the test of an `if`: a boolean alone, or two operands. -/
def test (inside : Inside) : Reader Kind Test := do
  if let .bool b ← peek then
    advance
    return .literal b
  let left ← inside.operand
  expect .is .is
  return .is left (← inside.operand)

/-- Read a call of `if` from its name on. -/
def ifCall (inside : Inside) : Reader Kind Expr := do
  advance
  expect .leftParen (.opening .ifElse)
  let t ← test inside
  expect .comma (.comma .ifElse)
  let yes ← inside.expression
  expect .comma (.comma .ifElse)
  let no ← inside.expression
  close .rightParen
  return .ifElse t yes no

/-- Read a call of `replaceAll` from its name on. -/
def replaceCall (inside : Inside) : Reader Kind Expr := do
  advance
  expect .leftParen (.opening .replaceAll)
  let value ← inside.expression
  expect .comma (.comma .replaceAll)
  let search ← inside.expression
  expect .comma (.comma .replaceAll)
  let replacement ← inside.expression
  close .rightParen
  return .replaceAll value search replacement

/-- Read a term of a `+` run. -/
def term (inside? : Option Inside) : Reader Kind Expr := do
  let .ident name ← peek | simple inside? .value
  match Function.ofName? name with
  | some .ifElse => nested inside? ifCall
  | some .replaceAll => nested inside? replaceCall
  | none => fail (.unknownFunction name Function.names)

/-- Read a side of `is`. -/
def operand (inside? : Option Inside) : Reader Kind Expr := do
  let .ident name ← peek | simple inside? .operand
  match Function.ofName? name with
  | some .replaceAll => nested inside? replaceCall
  | some .ifElse => unexpected .operandNotIf
  | none => fail (.unknownFunction name Function.names)

/-- Read terms joined by `+`. -/
def expression (inside? : Option Inside) : Reader Kind Expr :=
  join <$> separated .plus (term inside?)

/-- The readers for what stands inside a group or a call, when `depth` more
levels of nesting are allowed from outside it. -/
def inside? : (depth : Nat) → Option Inside
  | 0 => none
  | depth + 1 => some ⟨expression (inside? depth), operand (inside? depth)⟩

/-- Read a whole stream as one expression. -/
def read : Reader Kind Expr :=
  whole (expression (inside? maxNesting)) .plus

/-- The expression that some tokens over a source text make. -/
def ofTokens (source : String) (tokens : List (Token Kind)) : Except Fault Expr :=
  (read.run (Stream.ofTokens source tokens)).map (·.1)

end Expr

end FormLogic
