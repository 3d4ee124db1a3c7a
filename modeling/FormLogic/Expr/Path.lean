import FormLogic.Text.Blank

/-!
# FormLogic.Expr.Path

Variable paths such as `applicant/address:display`. Steps stand between
slashes; a step has a key, and behind a colon it may have an accessor. Blanks
around a step, a key or an accessor do not count.
-/

namespace FormLogic

open Text

/-- One step of a path. -/
structure PathSegment where
  key : String
  /-- A key to look up when the step finds an object. -/
  accessor : Option String
deriving DecidableEq, Repr

/-- A path with the text it was read from. -/
structure Path where
  raw : String
  segments : List PathSegment
deriving DecidableEq, Repr

/-- The step that a text between slashes stands for. What follows a second
colon is ignored, and a blank accessor is none. -/
def PathSegment.ofText (s : List Char) : PathSegment :=
  let parts := (splitAt ':' (trim s)).map trim
  { key := String.ofList (parts.headD [])
    accessor := (parts.tail.head?.filter (!·.isEmpty)).map String.ofList }

/-- The path that a text stands for. -/
def Path.ofText (raw : String) : Path :=
  ⟨raw, (splitAt '/' raw.toList).map PathSegment.ofText⟩

/-- A path as it stands in an expression. -/
def Path.text (p : Path) : String :=
  "\x7b" ++ p.raw ++ "\x7d"

@[simp] theorem Path.toList_text (p : Path) : p.text.toList = '{' :: p.raw.toList ++ ['}'] := by
  simp [text]

end FormLogic
