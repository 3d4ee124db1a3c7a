import FormLogic.Document.Fault
import FormLogic.Json.Parser
import FormLogic.State

/-!
# FormLogic.Value.Json

Answers as JSON and back. Numbers become text, the items of an array become
their display texts, and objects become answers in the order of their members.
Writing puts the members of every object in ascending order of keys.
-/

namespace FormLogic

namespace Value

mutual

/-- The answer that a JSON value stands for. -/
def ofJson : Json → Value
  | .null => .absent
  | .bool b => .bool b
  | .number n => .text (String.ofList n.text)
  | .string s => .text s
  | .array items => .list (ofJsonItems items)
  | .object members => .object (Entries.ofPairs (ofJsonMembers members))
  | .unusable => .absent

/-- The display texts of the answers that some items stand for. -/
def ofJsonItems : List Json → List String
  | [] => []
  | j :: js => (ofJson j).displayText :: ofJsonItems js

/-- The answers that some members stand for. -/
def ofJsonMembers : List (String × Json) → List (String × Value)
  | [] => []
  | (k, j) :: js => (k, ofJson j) :: ofJsonMembers js

end

mutual

/-- An answer as a JSON value. -/
def toJson : Value → Json
  | .absent => .null
  | .bool b => .bool b
  | .text s => .string s
  | .list items => .array (items.map .string)
  | .object entries => .object (Json.sortEntries (toJsonMembers entries))

/-- Named answers as members of a JSON object. -/
def toJsonMembers : List (String × Value) → List (String × Json)
  | [] => []
  | (k, v) :: es => (k, toJson v) :: toJsonMembers es

end

end Value

namespace State

/-- The answers under the names of a JSON object. -/
def ofJson? (j : Json) : Except ReadFault State :=
  match j with
  | .object members => .ok (ofPairs (Value.ofJsonMembers members))
  | j => .error (.notAnObject (Value.ofJson j).typeName)

/-- The answers of a JSON text, in ascending order of names. -/
def ofJsonText? (text : String) : Except ReadFault State :=
  match Json.ofReadableText? text with
  | none => .error .notWellFormed
  | some j => ofJson? j.sorted

/-- The answers as a JSON object. -/
def toJson (s : State) : Json :=
  .object (Json.sortEntries (Value.toJsonMembers s.entries))

end State

end FormLogic
