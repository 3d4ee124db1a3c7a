import FormLogic.Json.Basic
import FormLogic.Text.Visible

/-!
# FormLogic.Document.Node

Documents as trees, whatever notation they are written in. An atom has a
meaning; a notation without quotes also keeps how the atom is spelled, because
a setting that wants a text takes the spelling.
-/

namespace FormLogic

/-- What an atom of a document means. -/
inductive Atom where
  | null
  | bool (b : Bool)
  | number (n : JsonNumber)
  | text (s : String)
  /-- An atom that stands for no value. -/
  | unusable
deriving DecidableEq, Repr

/-- How an atom is spelled, and whether it stands there without quotes. -/
structure Spelling where
  text : String
  plain : Bool
deriving DecidableEq, Repr

/-- A document or a part of one. -/
inductive Node where
  | atom (meaning : Atom) (spelling : Option Spelling)
  | seq (items : List Node)
  | map (members : List (Node × Node))
  /-- A collection with a tag of the application's own. -/
  | tagged (inner : Node)
deriving Repr

namespace Node

instance : Inhabited Node := ⟨.atom .null none⟩

/-- A text that is written in one way only. -/
def ofText (s : String) : Node :=
  .atom (.text s) none

mutual

/-- A JSON value as a document. -/
def ofJson : Json → Node
  | .null => .atom .null none
  | .bool b => .atom (.bool b) none
  | .number n => .atom (.number n) none
  | .string s => ofText s
  | .array items => .seq (ofJsonItems items)
  | .object members => .map (ofJsonMembers members)
  | .unusable => .atom .unusable none

/-- JSON values as documents. -/
def ofJsonItems : List Json → List Node
  | [] => []
  | j :: js => ofJson j :: ofJsonItems js

/-- Members of a JSON object as members of a document. -/
def ofJsonMembers : List (String × Json) → List (Node × Node)
  | [] => []
  | (k, j) :: js => (ofText k, ofJson j) :: ofJsonMembers js

end

/-! ## What a node can be read as -/

mutual

/-- Whether every atom stands for a value and no collection is tagged, and at
most `depth` collections stand inside one another. -/
def isContent (depth : Nat) : Node → Bool
  | .atom meaning _ => meaning != .unusable
  | .seq items =>
    match depth with
    | 0 => false
    | depth + 1 => allContent depth items
  | .map members =>
    match depth with
    | 0 => false
    | depth + 1 => allContentMembers depth members
  | .tagged _ => false

/-- Whether some nodes are all content. -/
def allContent (depth : Nat) : List Node → Bool
  | [] => true
  | n :: ns => isContent depth n && allContent depth ns

/-- Whether the keys and values of some members are all content. -/
def allContentMembers (depth : Nat) : List (Node × Node) → Bool
  | [] => true
  | (k, n) :: ms => isContent depth k && isContent depth n && allContentMembers depth ms

end

/-- The node without the tag of its own. -/
def untagged : Node → Node
  | .tagged inner => inner
  | n => n

/-- A node as messages name what they found. -/
def description : Node → String
  | .atom .null _ => "null"
  | .atom (.bool b) _ => "boolean `" ++ toString b ++ "`"
  | .atom (.number (.integer i)) _ => "integer `" ++ toString i ++ "`"
  | .atom (.number n) _ => "floating point `" ++ String.ofList n.text ++ "`"
  | .atom (.text s) _ => "string " ++ Text.showText s
  | .atom .unusable _ => "nothing usable"
  | .seq _ => "sequence"
  | .map _ => "map"
  | .tagged _ => "enum"

end Node

end FormLogic
