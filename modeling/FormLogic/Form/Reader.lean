import FormLogic.Document.Setting
import FormLogic.Form.Basic
import FormLogic.Json.Parser

/-!
# FormLogic.Form.Reader

Forms from documents. Settings are read in the order in which they stand, so
the first fault of a document is the one reported; then the settings that are
missing are looked for in the order of their declaration. Unknown settings are
ignored. A field's type decides which of its other settings count, and these
are read as content. A form, a section or a choice may also be a sequence of
its settings in the order of their declaration.
-/

namespace FormLogic

/-- The member of a structure that is given by a map: its settings are put one
after another into a draft. -/
def readSettings {δ : Type} (names : List String) (put : δ → String → Node → Read δ)
    (draft : δ) (members : List (Node × Node)) : Read δ :=
  members.foldlM (fun d m => do put d (← readKey names m.1) m.2) draft

/-- Read an item of a sequence, or take the default behind its end. -/
def itemOr {α : Type} (default : α) (read : Node → Read α) : Option Node → Read α
  | none => .ok default
  | some n => read n

/-! ## Choices -/

/-- The settings of a choice read so far. -/
structure ChoiceDraft where
  label : Option String := none
  value : Option String := none

/-- Put a setting into a draft. -/
def ChoiceDraft.put (d : ChoiceDraft) (name : String) (n : Node) : Read ChoiceDraft := do
  match name with
  | "label" => return { d with label := ← once name d.label (readText n) }
  | "value" => return { d with value := ← once name d.value (readText n) }
  | _ => return d

/-- The choice that a draft describes. -/
def ChoiceDraft.finish (d : ChoiceDraft) : Read Choice := do
  return { label := ← require "label" d.label, value := ← require "value" d.value }

/-- Read a choice. -/
def readChoice (n : Node) : Read Choice := do
  match n with
  | .map members =>
    (← readSettings ["label", "value"] ChoiceDraft.put {} members).finish
  | .seq [] => throw (.invalidLength 0 "struct Choice with 2 elements")
  | .seq [label] =>
    let _ ← readText label
    throw (.invalidLength 1 "struct Choice with 2 elements")
  | .seq (label :: value :: rest) =>
    let c : Choice := { label := ← readText label, value := ← readText value }
    if rest.isEmpty then return c
    throw (.invalidLength (2 + rest.length) "2 elements in sequence")
  | n => wrongType n "struct Choice"

/-! ## Settings of the types of field -/

/-- The names of the settings that count for a type of field. -/
def FieldType.settings : FieldType → List String
  | .staticText => ["content"]
  | .html => ["content"]
  | .text => ["minimumLength", "maximumLength"]
  | .textarea => ["minimumLength", "maximumLength"]
  | .number => ["minimumValue", "maximumValue"]
  | .radio => ["options", "allowOther", "displayStyle"]
  | .checkbox => ["options", "minimumChoices", "maximumChoices", "displayStyle"]
  | .date => []
  | .select =>
    ["allowMultiple", "isDynamic", "options", "allowOther", "minimumChoices",
      "maximumChoices", "selectLabel"]
  | .autoLookup => []
  | .subform => []

/-- The settings of a type of field read so far. -/
structure KindDraft where
  content : Option String := none
  minimumLength : Option (Option String) := none
  maximumLength : Option (Option String) := none
  minimumValue : Option (Option Decimal.Binary64) := none
  maximumValue : Option (Option Decimal.Binary64) := none
  options : Option (List Choice) := none
  allowOther : Option Bool := none
  displayStyle : Option (Option DisplayStyle) := none
  minimumChoices : Option (Option UInt32) := none
  maximumChoices : Option (Option UInt32) := none
  allowMultiple : Option Bool := none
  isDynamic : Option Bool := none
  selectLabel : Option (Option String) := none

/-- Read a layout. -/
def readDisplayStyle : Node → Read DisplayStyle :=
  readEnum DisplayStyle.name [.vertical, .horizontal]

/-- Put a setting into a draft. -/
def KindDraft.put (d : KindDraft) (name : String) (n : Node) : Read KindDraft := do
  match name with
  | "content" => return { d with content := ← once name d.content (readText n) }
  | "minimumLength" =>
    return { d with minimumLength := ← once name d.minimumLength (readOptional readText n) }
  | "maximumLength" =>
    return { d with maximumLength := ← once name d.maximumLength (readOptional readText n) }
  | "minimumValue" =>
    return { d with minimumValue := ← once name d.minimumValue (readOptional readReal n) }
  | "maximumValue" =>
    return { d with maximumValue := ← once name d.maximumValue (readOptional readReal n) }
  | "options" => return { d with options := ← once name d.options (readItems readChoice n) }
  | "allowOther" => return { d with allowOther := ← once name d.allowOther (readBool n) }
  | "displayStyle" =>
    return { d with
      displayStyle := ← once name d.displayStyle (readOptional readDisplayStyle n) }
  | "minimumChoices" =>
    return { d with minimumChoices := ← once name d.minimumChoices (readOptional readCount n) }
  | "maximumChoices" =>
    return { d with maximumChoices := ← once name d.maximumChoices (readOptional readCount n) }
  | "allowMultiple" =>
    return { d with allowMultiple := ← once name d.allowMultiple (readBool n) }
  | "isDynamic" => return { d with isDynamic := ← once name d.isDynamic (readBool n) }
  | "selectLabel" =>
    return { d with selectLabel := ← once name d.selectLabel (readOptional readText n) }
  | _ => return d

/-- The field kind of a type that a draft describes. -/
def KindDraft.finish (d : KindDraft) : FieldType → FieldKind
  | .staticText => .staticText (d.content.getD "")
  | .html => .html (d.content.getD "")
  | .text => .text d.minimumLength.join d.maximumLength.join
  | .textarea => .textarea d.minimumLength.join d.maximumLength.join
  | .number => .number d.minimumValue.join d.maximumValue.join
  | .radio => .radio (d.options.getD []) (d.allowOther.getD false) d.displayStyle.join
  | .checkbox =>
    .checkbox (d.options.getD []) d.minimumChoices.join d.maximumChoices.join
      d.displayStyle.join
  | .date => .date
  | .select =>
    .select (d.allowMultiple.getD false) (d.isDynamic.getD false) (d.options.getD [])
      (d.allowOther.getD false) d.minimumChoices.join d.maximumChoices.join d.selectLabel.join
  | .autoLookup => .autoLookup
  | .subform => .subform

/-- The type that the settings of a field name, and their other settings. -/
def splitType (tag : Option FieldType) :
    List (String × Node) → Read (FieldType × List (String × Node))
  | [] => return (← require "type" tag, [])
  | (name, n) :: rest => do
    if name = "type" then
      let tag ← once name tag (readVariant FieldType.name FieldType.all n)
      splitType tag rest
    else
      let (type, others) ← splitType tag rest
      return (type, (name, n) :: others)

/-- Read the type of a field and the settings that count for it. -/
def readKind (settings : List (String × Node)) : Read FieldKind := do
  let (type, others) ← splitType none settings
  let counting := others.filter fun s => s.1 ∈ type.settings
  let draft ← counting.foldlM (fun d s => KindDraft.put d s.1 s.2) {}
  return draft.finish type

/-! ## Fields -/

/-- The settings of a field read so far. Those that no field has of itself are
kept, as content, for the type. -/
structure FieldDraft where
  id : Option String := none
  label : Option String := none
  dataName : Option String := none
  hidden : Option Bool := none
  displayCondition : Option (Option String) := none
  helpText : Option (Option String) := none
  defaultValue : Option (Option String) := none
  readOnly : Option Bool := none
  required : Option Bool := none
  readOnlyCondition : Option (Option String) := none
  requiredCondition : Option (Option String) := none
  validationCondition : Option (Option String) := none
  others : List (String × Node) := []

/-- The number of collections that may stand inside one another in a setting of
a field. -/
def maxSettingDepth : Nat := 122

/-- Put a setting into a draft. -/
def FieldDraft.put (d : FieldDraft) (name : String) (n : Node) : Read FieldDraft := do
  match name with
  | "id" => return { d with id := ← once name d.id (readText n) }
  | "label" => return { d with label := ← once name d.label (readText n) }
  | "dataName" => return { d with dataName := ← once name d.dataName (readText n) }
  | "hidden" => return { d with hidden := ← once name d.hidden (readBool n) }
  | "displayCondition" =>
    return { d with
      displayCondition := ← once name d.displayCondition (readOptional readText n) }
  | "helpText" => return { d with helpText := ← once name d.helpText (readOptional readText n) }
  | "defaultValue" =>
    return { d with defaultValue := ← once name d.defaultValue (readOptional readText n) }
  | "readOnly" => return { d with readOnly := ← once name d.readOnly (readBool n) }
  | "required" => return { d with required := ← once name d.required (readBool n) }
  | "readOnlyCondition" =>
    return { d with
      readOnlyCondition := ← once name d.readOnlyCondition (readOptional readText n) }
  | "requiredCondition" =>
    return { d with
      requiredCondition := ← once name d.requiredCondition (readOptional readText n) }
  | "validationCondition" =>
    return { d with
      validationCondition := ← once name d.validationCondition (readOptional readText n) }
  | _ =>
    if n.isContent maxSettingDepth then
      return { d with others := d.others ++ [(name, n.asContent)] }
    else throw .notWellFormed

/-- The field that a draft describes. -/
def FieldDraft.finish (d : FieldDraft) : Read Field := do
  let id ← require "id" d.id
  let dataName ← require "dataName" d.dataName
  let kind ← readKind d.others
  return {
    id
    label := d.label.getD ""
    dataName
    hidden := d.hidden.getD false
    displayCondition := d.displayCondition.join
    helpText := d.helpText.join
    defaultValue := d.defaultValue.join
    readOnly := d.readOnly.getD false
    required := d.required.getD false
    readOnlyCondition := d.readOnlyCondition.join
    requiredCondition := d.requiredCondition.join
    validationCondition := d.validationCondition.join
    kind }

/-- Read a field. -/
def readField (n : Node) : Read Field := do
  match n.untagged with
  | .map members => (← readSettings [] FieldDraft.put {} members).finish
  | n => if n.isVoid then FieldDraft.finish {} else wrongType n "struct Field"

/-! ## Sections -/

/-- The settings of a section read so far. -/
structure SectionDraft where
  id : Option String := none
  title : Option String := none
  displayCondition : Option (Option String) := none
  fields : Option (List Field) := none

/-- Put a setting into a draft. -/
def SectionDraft.put (d : SectionDraft) (name : String) (n : Node) : Read SectionDraft := do
  match name with
  | "id" => return { d with id := ← once name d.id (readText n) }
  | "title" => return { d with title := ← once name d.title (readText n) }
  | "displayCondition" =>
    return { d with
      displayCondition := ← once name d.displayCondition (readOptional readText n) }
  | "fields" => return { d with fields := ← once name d.fields (readItems readField n) }
  | _ => return d

/-- The section that a draft describes. -/
def SectionDraft.finish (d : SectionDraft) : Read Section := do
  return {
    id := ← require "id" d.id
    title := d.title.getD ""
    displayCondition := d.displayCondition.join
    fields := d.fields.getD [] }

/-- Read a section, which may be a sequence when `positional` holds. -/
def readSection (positional : Bool) (n : Node) : Read Section := do
  match n.untagged, positional with
  | .map members, _ => (← readSettings [] SectionDraft.put {} members).finish
  | .seq [], true => throw (.invalidLength 0 "struct Section with 4 elements")
  | .seq (id :: rest), true =>
    let s : Section := {
      id := ← readText id
      title := ← itemOr "" readText rest[0]?
      displayCondition := ← itemOr none (readOptional readText) rest[1]?
      fields := ← itemOr [] (readItems readField) rest[2]? }
    if rest.length ≤ 3 then return s
    throw .trailingItems
  | n, _ => if n.isVoid then SectionDraft.finish {} else wrongType n "struct Section"

/-! ## Forms -/

/-- The settings of a form read so far. -/
structure FormDraft where
  title : Option String := none
  description : Option (Option String) := none
  sections : Option (List Section) := none

/-- Put a setting into a draft. -/
def FormDraft.put (positional : Bool) (d : FormDraft) (name : String) (n : Node) :
    Read FormDraft := do
  match name with
  | "title" => return { d with title := ← once name d.title (readText n) }
  | "description" =>
    return { d with description := ← once name d.description (readOptional readText n) }
  | "sections" =>
    return { d with sections := ← once name d.sections (readItems (readSection positional) n) }
  | _ => return d

/-- The form that a draft describes. -/
def FormDraft.finish (d : FormDraft) : Read Form := do
  return {
    title := ← require "title" d.title
    description := d.description.join
    sections := d.sections.getD [] }

/-- Read a form; it and its sections may be sequences when `positional` holds. -/
def readForm (positional : Bool) (n : Node) : Read Form := do
  match n.untagged, positional with
  | .map members, _ => (← readSettings [] (FormDraft.put positional) {} members).finish
  | .seq [], true => throw (.invalidLength 0 "struct Form with 3 elements")
  | .seq (title :: rest), true =>
    let f : Form := {
      title := ← readText title
      description := ← itemOr none (readOptional readText) rest[0]?
      sections := ← itemOr [] (readItems (readSection positional)) rest[1]? }
    if rest.length ≤ 2 then return f
    throw .trailingItems
  | n, _ => if n.isVoid then FormDraft.finish {} else wrongType n "struct Form"

/-- The form that a JSON value describes. -/
def Form.ofJson? (j : Json) : Read Form :=
  readForm true (Node.ofJson j)

/-- The form that a JSON text describes. Literals that have no value matter
only where a setting is read from them. -/
def Form.ofJsonText? (text : String) : Read Form :=
  match Json.ofText? text with
  | none => .error .notWellFormed
  | some j =>
    match Form.ofJson? j with
    | .ok f => .ok f
    | .error e => .error (if j.isReadable 0 then e else .notWellFormed)

end FormLogic
