import FormLogic.Evaluator
import FormLogic.Form.Basic

/-!
# FormLogic.Form.Gates

What a form shows and asks for at the answers so far, and the way from section
to section. A gate without a condition, or with an empty one, stands at its
default.
-/

namespace FormLogic

/-- The truth of a gate's condition, if it has one. -/
def gateCondition? (condition : Option String) (s : State) : Option Bool :=
  match condition with
  | none => none
  | some expr => if expr.isEmpty then none else some (evaluateCondition expr s)

/-- Whether a section is shown. -/
def Section.isVisible (x : Section) (s : State) : Bool :=
  (gateCondition? x.displayCondition s).getD true

/-- Whether a field is shown. -/
def Field.isVisible (f : Field) (s : State) : Bool :=
  !f.hidden && (gateCondition? f.displayCondition s).getD true

/-- Whether a field must be answered. -/
def Field.isRequired (f : Field) (s : State) : Bool :=
  (gateCondition? f.requiredCondition s).getD f.required

/-- Whether a field's answer is fixed. -/
def Field.isReadOnly (f : Field) (s : State) : Bool :=
  (gateCondition? f.readOnlyCondition s).getD f.readOnly

/-- The fields of a section that are shown. -/
def Section.visibleFields (x : Section) (s : State) : List Field :=
  x.fields.filter (·.isVisible s)

/-- The sections that are shown, with their indices. -/
def Form.visibleSections (f : Form) (s : State) : List (Nat × Section) :=
  (f.sections.zipIdx.filter fun p => p.1.isVisible s).map fun p => (p.2, p.1)

/-! ## Navigation -/

/-- The way to go from a section. -/
inductive Direction where
  | next
  | previous
deriving DecidableEq, Repr

/-- Whether the form shows a section with this index. -/
def Form.showsSection (f : Form) (s : State) (index : Nat) : Bool :=
  match f.sections[index]? with
  | some x => x.isVisible s
  | none => false

/-- The nearest index behind `current`, or in front of it, at which the form
shows a section; `current` if there is none. -/
def Form.nearestVisible (f : Form) (current : Nat) (direction : Direction) (s : State) : Nat :=
  let count := f.sections.length
  let found := match direction with
    | .next => (List.range count).find? fun i => current < i && f.showsSection s i
    | .previous => (List.range (min current count)).reverse.find? (f.showsSection s)
  found.getD current

end FormLogic
