import FormLogic.Condition.Eval
import FormLogic.Condition.Parser
import FormLogic.Expr.Eval
import FormLogic.Expr.Parser

/-!
# FormLogic.Evaluator

Expressions as texts. `parseCondition` and `parseExpr` read a text as a tree
and keep what was skipped on the way; a strict reading refuses the first thing
it would have to skip. An `Evaluator` evaluates texts and never fails: a
condition that cannot be read is false, and a value expression that cannot be
read stands for its own text.
-/

namespace FormLogic

open Text

/-- A fault with the source text it lies in. -/
structure SourceFault where
  source : String
  fault : Fault
deriving DecidableEq, Repr

/-! ## Reading -/

/-- A tree with what was skipped to read it. -/
structure Parsed (τ : Type) where
  tree : τ
  anomalies : List Anomaly
deriving DecidableEq, Repr

/-- Refuse the first anomaly, where `known` are the words of the language. -/
def rejectAnomalies (known : List String) : List Anomaly → Except Fault Unit
  | [] => .ok ()
  | a :: _ => .error ⟨.unrecognizedInput a.kind known, a.span⟩

/-- Read a text as a tree, given the language's words, tokens and trees. -/
def parseWith {κ τ : Type} (known : List String) (lex : String → Lexed κ)
    (ofTokens : String → List (Token κ) → Except Fault τ) (source : String) (strict : Bool) :
    Except SourceFault (Parsed τ) :=
  let lexed := lex source
  let result : Except Fault (Parsed τ) := do
    if strict then rejectAnomalies known lexed.anomalies
    return ⟨← ofTokens source lexed.tokens, lexed.anomalies⟩
  result.mapError (⟨source, ·⟩)

/-- Read a condition. -/
def parseCondition : (source : String) → (strict : Bool) → Except SourceFault (Parsed Condition) :=
  parseWith Condition.keywords Condition.lex Condition.ofTokens

/-- Read a value expression. -/
def parseExpr : (source : String) → (strict : Bool) → Except SourceFault (Parsed Expr) :=
  parseWith Function.names Expr.lex Expr.ofTokens

/-! ## Quoted and plain texts -/

/-- The text inside one pair of equal quotes around the whole text. A quote
alone holds the empty text. -/
def enclosed? (s : List Char) : Option (List Char) :=
  match s with
  | [] => none
  | q :: rest =>
    if (q = '\'' ∨ q = '"') ∧ s.getLast? = some q then some rest.dropLast else none

/-- Whether a text holds nothing that an expression could be made of: no mark
of the value language, no boolean and no `is` as a word of its own. -/
def isPlain (text : List Char) : Bool :=
  let s := trim text
  !(s.any fun c => ['{', '}', '\'', '"', '+', '(', ')', ','].contains c)
    && lowercase s != "true".toList
    && lowercase s != "false".toList
    && !(words s).any fun w => w.map Char.toLower == "is".toList

/-- The text that an expression which cannot be read stands for. -/
def passedThrough (expr : String) : String :=
  let trimmed := trim expr.toList
  String.ofList ((enclosed? trimmed).getD trimmed)

/-! ## Evaluating -/

/-- How to evaluate texts. -/
structure Evaluator where
  /-- Refuse what would have to be skipped. -/
  strict : Bool := false
deriving DecidableEq, Repr

namespace Evaluator

/-- Read a text that is not enclosed in quotes. A plain text stands for
itself. -/
def parseUnquoted (ev : Evaluator) (text : List Char) : Except SourceFault (Parsed Expr) :=
  if isPlain text then .ok ⟨.text (String.ofList text), []⟩
  else parseExpr (String.ofList text) ev.strict

/-- Read a value expression without the blanks around it. A text enclosed in
quotes may be an expression as it stands, or an expression inside the quotes;
the first reading wins unless it is one literal whose inside can be read. -/
def parseValue (ev : Evaluator) (expr : String) : Except SourceFault (Parsed Expr) :=
  let trimmed := trim expr.toList
  match enclosed? trimmed with
  | none => ev.parseUnquoted trimmed
  | some inner =>
    match parseExpr (String.ofList trimmed) ev.strict with
    | .ok parsed =>
      match parsed.tree with
      | .text _ =>
        match ev.parseUnquoted inner with
        | .ok inside => .ok inside
        | .error _ => .ok parsed
      | _ => .ok parsed
    | .error _ => ev.parseUnquoted inner

/-- The truth of a condition, or why it cannot be read. -/
def condition? (ev : Evaluator) (expr : String) (s : State) : Except SourceFault Bool :=
  (parseCondition expr ev.strict).map (·.tree.eval s)

/-- The truth of a condition; one that cannot be read is false. -/
def condition (ev : Evaluator) (expr : String) (s : State) : Bool :=
  match ev.condition? expr s with
  | .ok b => b
  | .error _ => false

/-- The answer of a value expression, or why it cannot be read. -/
def value? (ev : Evaluator) (expr : String) (s : State) : Except SourceFault Value :=
  (ev.parseValue expr).map fun parsed => (parsed.tree.eval s).topLevel

/-- The answer of a value expression; one that cannot be read stands for its
own text. -/
def value (ev : Evaluator) (expr : String) (s : State) : Value :=
  match ev.value? expr s with
  | .ok v => v
  | .error _ => .text (passedThrough expr)

end Evaluator

/-! ## Checking -/

/-- A tree with the warnings of reading it. -/
structure Report (τ : Type) where
  tree : τ
  warnings : List Warning
deriving DecidableEq, Repr

/-- The report of a reading. -/
def Parsed.report {τ : Type} (p : Parsed τ) : Report τ :=
  ⟨p.tree, p.anomalies.map Anomaly.warning⟩

/-- Check a condition. -/
def Evaluator.checkCondition (ev : Evaluator) (expr : String) :
    Except SourceFault (Report Condition) :=
  (parseCondition expr ev.strict).map Parsed.report

/-- Check a value expression. -/
def Evaluator.checkValue (ev : Evaluator) (expr : String) : Except SourceFault (Report Expr) :=
  (ev.parseValue expr).map Parsed.report

/-! ## Default settings -/

/-- The truth of a condition that may hold skipped text. -/
def evaluateCondition (expr : String) (s : State) : Bool :=
  ({} : Evaluator).condition expr s

/-- The answer of a value expression that may hold skipped text. -/
def evaluateValue (expr : String) (s : State) : Value :=
  ({} : Evaluator).value expr s

end FormLogic
