import FormLogic.Decimal.Written
import FormLogic.Entries

/-!
# FormLogic.Json.Basic

JSON values, and reading an object as a map. Members are held in the order in
which they stand, repeated keys included; `sorted` turns every object into a
map in ascending order of keys, where the last of equal keys wins.
-/

namespace FormLogic

open Decimal

/-- A JSON number: an integer of 64 bits, or a floating-point number. -/
inductive JsonNumber where
  | integer (i : Int)
  | real (x : Binary64)
deriving DecidableEq, Repr

/-- The text of a number. -/
def JsonNumber.text : JsonNumber → List Char
  | .integer i => if i < 0 then '-' :: digitsOf i.natAbs else digitsOf i.natAbs
  | .real x => x.text

/-- A JSON value. -/
inductive Json where
  | null
  | bool (b : Bool)
  | number (n : JsonNumber)
  | string (s : String)
  | array (items : List Json)
  | object (members : List (String × Json))
  /-- A literal of the grammar that has no value: a number beyond all floating-point
  numbers, or a string with half of a surrogate pair. -/
  | unusable
deriving Repr

namespace Json

instance : Inhabited Json := ⟨.null⟩

/-! ## Measures -/

mutual

/-- The number of arrays and objects inside one another. -/
def depth : Json → Nat
  | .array items => depthItems items + 1
  | .object members => depthMembers members + 1
  | _ => 0

/-- The greatest depth of some items. -/
def depthItems : List Json → Nat
  | [] => 0
  | j :: js => max (depth j) (depthItems js)

/-- The greatest depth of some members. -/
def depthMembers : List (String × Json) → Nat
  | [] => 0
  | (_, j) :: js => max (depth j) (depthMembers js)

end

mutual

/-- Whether every literal has a value. -/
def isUsable : Json → Bool
  | .array items => allUsable items
  | .object members => allUsableMembers members
  | .unusable => false
  | _ => true

/-- Whether every literal of some items has a value. -/
def allUsable : List Json → Bool
  | [] => true
  | j :: js => isUsable j && allUsable js

/-- Whether every literal of some members has a value. -/
def allUsableMembers : List (String × Json) → Bool
  | [] => true
  | (_, j) :: js => isUsable j && allUsableMembers js

end

/-- The greatest depth of a document that is read as a value. -/
def maxDepth : Nat := 127

/-- Whether a value can be read inside `outer` arrays and objects. -/
def isReadable (outer : Nat) (j : Json) : Bool :=
  j.isUsable && outer + j.depth ≤ maxDepth

/-! ## Objects as maps -/

/-- Give a key a value in a map whose keys ascend. -/
def insertSorted {α : Type} (key : String) (value : α) : Entries α → Entries α
  | [] => [(key, value)]
  | (k, v) :: es =>
    if key < k then (key, value) :: (k, v) :: es
    else if k = key then (key, value) :: es
    else (k, v) :: insertSorted key value es

/-- The map of some pairs, in ascending order of keys; the last of equal keys
wins. -/
def sortEntries {α : Type} (pairs : List (String × α)) : Entries α :=
  pairs.foldl (fun es p => insertSorted p.1 p.2 es) []

mutual

/-- The value with all its objects read as maps. -/
def sorted : Json → Json
  | .array items => .array (sortedItems items)
  | .object members => .object (sortEntries (sortedMembers members))
  | j => j

/-- Some items with all their objects read as maps. -/
def sortedItems : List Json → List Json
  | [] => []
  | j :: js => sorted j :: sortedItems js

/-- Some members with all their objects read as maps. -/
def sortedMembers : List (String × Json) → List (String × Json)
  | [] => []
  | (k, j) :: js => (k, sorted j) :: sortedMembers js

end

end Json

end FormLogic
