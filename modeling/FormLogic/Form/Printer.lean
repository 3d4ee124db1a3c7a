import FormLogic.Form.Basic
import FormLogic.Json.Printer

/-!
# FormLogic.Form.Printer

Forms as JSON. Settings stand in the order in which the types declare them;
those that are absent are left out, and a field's kind and its own settings
come last.
-/

namespace FormLogic

open Decimal

/-- A member that is there only when the setting is. -/
def optionalMember {α : Type} (name : String) (write : α → Json) : Option α → List (String × Json)
  | none => []
  | some a => [(name, write a)]

/-- A choice as JSON. -/
def Choice.toJson (c : Choice) : Json :=
  .object [("label", .string c.label), ("value", .string c.value)]

/-- Choices as JSON. -/
def choicesJson (cs : List Choice) : Json :=
  .array (cs.map Choice.toJson)

/-- A number of choices as JSON. -/
def countJson (n : UInt32) : Json :=
  .number (.integer n.toNat)

/-- A bound of a number as JSON. -/
def boundJson (x : Binary64) : Json :=
  .number (.real x)

/-- A layout as JSON. -/
def DisplayStyle.toJson (d : DisplayStyle) : Json :=
  .string d.name

/-- The settings of a kind as members of a JSON object. -/
def FieldKind.members : FieldKind → List (String × Json)
  | .staticText content => [("content", .string content)]
  | .html content => [("content", .string content)]
  | .text lo hi =>
    optionalMember "minimumLength" .string lo ++ optionalMember "maximumLength" .string hi
  | .textarea lo hi =>
    optionalMember "minimumLength" .string lo ++ optionalMember "maximumLength" .string hi
  | .number lo hi =>
    optionalMember "minimumValue" boundJson lo ++ optionalMember "maximumValue" boundJson hi
  | .radio options other style =>
    [("options", choicesJson options), ("allowOther", .bool other)]
      ++ optionalMember "displayStyle" DisplayStyle.toJson style
  | .checkbox options lo hi style =>
    [("options", choicesJson options)]
      ++ optionalMember "minimumChoices" countJson lo
      ++ optionalMember "maximumChoices" countJson hi
      ++ optionalMember "displayStyle" DisplayStyle.toJson style
  | .date => []
  | .select multiple dynamic options other lo hi label =>
    [("allowMultiple", .bool multiple), ("isDynamic", .bool dynamic),
      ("options", choicesJson options), ("allowOther", .bool other)]
      ++ optionalMember "minimumChoices" countJson lo
      ++ optionalMember "maximumChoices" countJson hi
      ++ optionalMember "selectLabel" .string label
  | .autoLookup => []
  | .subform => []

/-- A field as JSON. -/
def Field.toJson (f : Field) : Json :=
  .object <|
    [("id", .string f.id), ("label", .string f.label), ("dataName", .string f.dataName),
      ("hidden", .bool f.hidden)]
    ++ optionalMember "displayCondition" .string f.displayCondition
    ++ optionalMember "helpText" .string f.helpText
    ++ optionalMember "defaultValue" .string f.defaultValue
    ++ [("readOnly", .bool f.readOnly), ("required", .bool f.required)]
    ++ optionalMember "readOnlyCondition" .string f.readOnlyCondition
    ++ optionalMember "requiredCondition" .string f.requiredCondition
    ++ optionalMember "validationCondition" .string f.validationCondition
    ++ [("type", .string f.kind.name)]
    ++ f.kind.members

/-- A section as JSON. -/
def Section.toJson (s : Section) : Json :=
  .object <|
    [("id", .string s.id), ("title", .string s.title)]
    ++ optionalMember "displayCondition" .string s.displayCondition
    ++ [("fields", .array (s.fields.map Field.toJson))]

/-- A form as JSON. -/
def Form.toJson (f : Form) : Json :=
  .object <|
    [("title", .string f.title)]
    ++ optionalMember "description" .string f.description
    ++ [("sections", .array (f.sections.map Section.toJson))]

/-- A form as a JSON text. -/
def Form.text (f : Form) : String :=
  f.toJson.text

end FormLogic
