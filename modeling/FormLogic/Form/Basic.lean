import FormLogic.Decimal.Binary64

/-!
# FormLogic.Form.Basic

Forms, their sections and their fields. The conditions and default values of a
form are texts of the two expression languages; they are read only when they
are evaluated.
-/

namespace FormLogic

open Decimal

/-- An option to choose. -/
structure Choice where
  label : String
  value : String
deriving DecidableEq, Repr

/-- How options are laid out. -/
inductive DisplayStyle where
  | vertical
  | horizontal
deriving DecidableEq, Repr

/-- The name of a layout in documents. -/
def DisplayStyle.name : DisplayStyle → String
  | .vertical => "vertical"
  | .horizontal => "horizontal"

/-- The types of field. -/
inductive FieldType where
  | staticText
  | html
  | text
  | textarea
  | number
  | radio
  | checkbox
  | date
  | select
  | autoLookup
  | subform
deriving DecidableEq, Repr

/-- All types of field, in the order in which documents may number them. -/
def FieldType.all : List FieldType :=
  [.staticText, .html, .text, .textarea, .number, .radio, .checkbox, .date, .select,
    .autoLookup, .subform]

/-- The name of a type of field in documents. -/
def FieldType.name : FieldType → String
  | .staticText => "staticText"
  | .html => "html"
  | .text => "text"
  | .textarea => "textarea"
  | .number => "number"
  | .radio => "radio"
  | .checkbox => "checkbox"
  | .date => "date"
  | .select => "select"
  | .autoLookup => "autoLookup"
  | .subform => "subform"

/-- What a field is, with the settings of its own. -/
inductive FieldKind where
  | staticText (content : String)
  | html (content : String)
  | text (minimumLength maximumLength : Option String)
  | textarea (minimumLength maximumLength : Option String)
  | number (minimumValue maximumValue : Option Binary64)
  | radio (options : List Choice) (allowOther : Bool) (displayStyle : Option DisplayStyle)
  | checkbox (options : List Choice) (minimumChoices maximumChoices : Option UInt32)
      (displayStyle : Option DisplayStyle)
  | date
  | select (allowMultiple isDynamic : Bool) (options : List Choice) (allowOther : Bool)
      (minimumChoices maximumChoices : Option UInt32) (selectLabel : Option String)
  | autoLookup
  | subform
deriving DecidableEq, Repr

/-- The type of a field with its settings. -/
def FieldKind.fieldType : FieldKind → FieldType
  | .staticText _ => .staticText
  | .html _ => .html
  | .text .. => .text
  | .textarea .. => .textarea
  | .number .. => .number
  | .radio .. => .radio
  | .checkbox .. => .checkbox
  | .date => .date
  | .select .. => .select
  | .autoLookup => .autoLookup
  | .subform => .subform

/-- The name of a field's type in documents. -/
def FieldKind.name (k : FieldKind) : String :=
  k.fieldType.name

/-- A question, or a block of content. -/
structure Field where
  id : String
  label : String
  /-- The name of the field's answer. -/
  dataName : String
  hidden : Bool
  displayCondition : Option String
  helpText : Option String
  /-- A value expression for the first answer. -/
  defaultValue : Option String
  readOnly : Bool
  required : Bool
  readOnlyCondition : Option String
  requiredCondition : Option String
  /-- Kept for the host, which validates answers. -/
  validationCondition : Option String
  kind : FieldKind
deriving DecidableEq, Repr

/-- Whether the field takes an answer. -/
def Field.isInput (f : Field) : Bool :=
  match f.kind with
  | .staticText _ => false
  | .html _ => false
  | _ => true

/-- A page of a form. -/
structure Section where
  id : String
  title : String
  displayCondition : Option String
  fields : List Field
deriving DecidableEq, Repr

/-- A form. -/
structure Form where
  title : String
  description : Option String
  sections : List Section
deriving DecidableEq, Repr

/-- The fields of all sections, in order. -/
def Form.fields (f : Form) : List Field :=
  f.sections.flatMap (·.fields)

/-- The first field with a data name. -/
def Form.fieldNamed? (f : Form) (dataName : String) : Option Field :=
  f.fields.find? (·.dataName == dataName)

end FormLogic
