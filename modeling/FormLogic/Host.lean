import FormLogic.Error
import FormLogic.Form.Gates
import FormLogic.Form.Reader
import FormLogic.Form.Seeding
import FormLogic.Json.Printer
import FormLogic.Value.Json

/-!
# FormLogic.Host

The library for a host that passes forms and answers as JSON texts and gets
JSON texts back. Answers that cannot be read count as no answers.
-/

namespace FormLogic.Host

/-- The outcome of a call: a JSON text, or what went wrong. -/
structure Reply where
  output : String
  message : String
  success : Bool
deriving DecidableEq, Repr

/-- The reply that carries a JSON value. -/
def Reply.ok (j : Json) : Reply :=
  ⟨j.text, "", true⟩

/-- The reply that carries an error. -/
def Reply.error (e : Error) : Reply :=
  ⟨"", e.message, false⟩

/-- The answers of a JSON text; there are none when it cannot be read. -/
def stateOf (text : String) : State :=
  match State.ofJsonText? text with
  | .ok s => s
  | .error _ => .empty

/-- The truth of a condition. -/
def evaluateCondition (expr stateText : String) : Bool :=
  FormLogic.evaluateCondition expr (stateOf stateText)

/-- The answer of a value expression. -/
def evaluateValue (expr stateText : String) : Reply :=
  .ok (FormLogic.evaluateValue expr (stateOf stateText)).toJson

/-- The first answers of a form. -/
def createFormState (formText : String) : Reply :=
  match Form.ofJsonText? formText with
  | .ok f => .ok f.initialState.toJson
  | .error e => .error (.invalidForm e)

/-- The data names of the fields that a section shows. -/
def visibleFields (formText : String) (index : Nat) (stateText : String) : Reply :=
  match Form.ofJsonText? formText with
  | .error e => .error (.invalidForm e)
  | .ok f =>
    match f.sections[index]? with
    | none => .error (.invalidForm (.noSection index f.sections.length))
    | some x =>
      .ok (.array ((x.visibleFields (stateOf stateText)).map fun f => .string f.dataName))

end FormLogic.Host
