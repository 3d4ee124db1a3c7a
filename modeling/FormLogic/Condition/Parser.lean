import FormLogic.Condition.Basic
import FormLogic.Condition.Token
import FormLogic.Stream

/-!
# FormLogic.Condition.Parser

Conditions from tokens:

    condition  := disjunct
    disjunct   := conjunct ('or' conjunct)*
    conjunct   := primary ('and' primary)*
    primary    := '(' disjunct ')' | comparison
    comparison := VAR OP TEXT

A run of one connective is one flat node.
-/

namespace FormLogic.Condition

open Reader

/-- Read a comparison. -/
def comparison : Reader Kind Condition := do
  let .var name ← peek | unexpected .variable
  advance
  let op? := match ← peek with
    | .op word => CompareOp.ofWord? word
    | _ => none
  let some op := op? | unexpected .operator
  advance
  let .text expected ← peek | unexpected .literal
  advance
  return .compare name op expected

/-- Read a parenthesised condition or a comparison, given the reader for what
stands inside parentheses. -/
def primary (inner? : Option (Reader Kind Condition)) : Reader Kind Condition := do
  if (← peek) = .leftParen then
    nested inner? fun inner => do
      advance
      let c ← inner
      close .rightParen
      return c
  else comparison

/-- Read primaries joined by `and`, and those joined by `or`. -/
def disjunct (inner? : Option (Reader Kind Condition)) : Reader Kind Condition := do
  let conjunct := conjunction <$> separated .and (primary inner?)
  return disjunction (← separated .or conjunct)

/-- The reader for what stands inside parentheses, when `depth` more levels of
nesting are allowed from outside them. -/
def inside? : (depth : Nat) → Option (Reader Kind Condition)
  | 0 => none
  | depth + 1 => some (disjunct (inside? depth))

/-- Read a whole stream as one condition. -/
def read : Reader Kind Condition :=
  whole (disjunct (inside? maxNesting)) .connective

/-- The condition that some tokens over a source text make. -/
def ofTokens (source : String) (tokens : List (Token Kind)) : Except Fault Condition :=
  (read.run (Stream.ofTokens source tokens)).map (·.1)

end FormLogic.Condition
