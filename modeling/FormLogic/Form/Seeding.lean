import FormLogic.Evaluator
import FormLogic.Form.Basic

/-!
# FormLogic.Form.Seeding

The first answers of a form. Fields are seeded in order, and each default value
sees the answers seeded before it.
-/

namespace FormLogic

/-- The answer of a select: several values are kept only where the field allows
them, and one value stands as a list where it does. -/
def normalizeSelect (allowMultiple : Bool) (v : Value) : Value :=
  match allowMultiple, v with
  | true, .list items => .list items
  | true, v => .list [v.displayText]
  | false, .list [] => .absent
  | false, .list (item :: _) => .text item
  | false, v => v

/-- The answer that a kind of field makes of a value. -/
def FieldKind.normalize (k : FieldKind) (v : Value) : Value :=
  match k with
  | .select allowMultiple .. => normalizeSelect allowMultiple v
  | _ => v

/-- The first answer of a field, after the answers in `s`. A default that is
missing or empty counts as the empty text. -/
def Field.seed (ev : Evaluator) (s : State) (f : Field) : Value :=
  f.kind.normalize <|
    match f.defaultValue with
    | none => .text ""
    | some expr => if expr.isEmpty then .text "" else ev.value expr s

/-- Seed some fields after the answers in `s`. -/
def seedFields (ev : Evaluator) (s : State) (fields : List Field) : State :=
  fields.foldl (fun s f => s.set f.dataName (f.seed ev s)) s

/-- The first answers of a form. -/
def Form.seed (f : Form) (ev : Evaluator) : State :=
  seedFields ev .empty f.fields

/-- The first answers of a form, where defaults may hold skipped text. -/
def Form.initialState (f : Form) : State :=
  f.seed {}

end FormLogic
