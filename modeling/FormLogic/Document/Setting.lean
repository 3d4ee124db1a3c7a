import FormLogic.Document.Fault
import FormLogic.Document.Node

/-!
# FormLogic.Document.Setting

Reading the parts of a document as settings. A setting is read either where it
stands, so that a text takes the spelling of an atom without quotes, or as
content, where an atom counts for what it means; `Node.asContent` turns the
first case into the second. The keys of a map name settings; a content key may
also give the number of a setting.
-/

namespace FormLogic

namespace Node

mutual

/-- The node with atoms that only count for what they mean. -/
def asContent : Node → Node
  | .atom meaning _ => .atom meaning none
  | .seq items => .seq (asContentItems items)
  | .map members => .map (asContentMembers members)
  | .tagged inner => .tagged inner

/-- Some nodes as content. -/
def asContentItems : List Node → List Node
  | [] => []
  | n :: ns => asContent n :: asContentItems ns

/-- Some members as content. -/
def asContentMembers : List (Node × Node) → List (Node × Node)
  | [] => []
  | (k, n) :: ms => (asContent k, asContent n) :: asContentMembers ms

end

/-- Whether the node is an atom of which nothing is written. -/
def isVoid : Node → Bool
  | .atom .null (some ⟨"", true⟩) => true
  | _ => false

end Node

/-- The outcome of reading a part of a document. -/
abbrev Read (α : Type) := Except ReadFault α

/-- Refuse a node that is not what a setting needs. -/
def wrongType {α : Type} (n : Node) (expected : String) : Read α :=
  .error (.invalidType n.description expected)

/-! ## Atoms -/

/-- Read a text. -/
def readText (n : Node) : Read String :=
  match n with
  | .atom _ (some spelling) => .ok spelling.text
  | .atom (.text s) none => .ok s
  | n => wrongType n "a string"

/-- Read a truth value. -/
def readBool (n : Node) : Read Bool :=
  match n with
  | .atom (.bool b) _ => .ok b
  | n => wrongType n "a boolean"

/-- Read a setting that may be null. -/
def readOptional {α : Type} (read : Node → Read α) (n : Node) : Read (Option α) :=
  match n with
  | .atom .null _ => .ok none
  | n => some <$> read n

/-- Read a floating-point number. -/
def readReal (n : Node) : Read Decimal.Binary64 :=
  match n with
  | .atom (.number (.integer i)) _ => .ok (.ofInt i)
  | .atom (.number (.real x)) _ => .ok x
  | n => wrongType n "f64"

/-- Read a natural number of 32 bits. -/
def readCount (n : Node) : Read UInt32 :=
  match n with
  | .atom (.number (.integer i)) _ =>
    if 0 ≤ i ∧ i ≤ 0xFFFFFFFF then .ok (UInt32.ofNat i.toNat)
    else .error (.invalidValue n.description "u32")
  | n => wrongType n "u32"

/-! ## Sequences -/

/-- Read every item of a sequence. -/
def readItems {α : Type} (read : Node → Read α) (n : Node) : Read (List α) :=
  match n.untagged with
  | .seq items => items.mapM read
  | n => if n.isVoid then .ok [] else wrongType n "a sequence"

/-! ## Maps -/

/-- The name that a key stands for among the settings `names`. A number stands
for the setting at its place, and beyond the last place for none. -/
def readKey (names : List String) (key : Node) : Read String :=
  match key with
  | .atom _ (some spelling) => .ok spelling.text
  | .atom (.text s) none => .ok s
  | .atom (.number (.integer i)) none =>
    if 0 ≤ i then .ok (names.getD i.toNat "") else wrongType key "field identifier"
  | key => wrongType key "field identifier"

/-- Read a setting into its slot, which must be empty. -/
def once {α : Type} (name : String) (slot : Option α) (read : Read α) : Read (Option α) :=
  match slot with
  | some _ => .error (.duplicateField name)
  | none => some <$> read

/-- A setting that must be there. -/
def require {α : Type} (name : String) (slot : Option α) : Read α :=
  match slot with
  | some a => .ok a
  | none => .error (.missingField name)

/-! ## Variants -/

/-- Read one of some names, or its number. -/
def readVariant {α : Type} (name : α → String) (all : List α) (n : Node) : Read α :=
  match n with
  | .atom (.text s) _ =>
    match all.find? (name · == s) with
    | some a => .ok a
    | none => .error (.unknownVariant s (all.map name))
  | .atom (.number (.integer i)) _ =>
    if i < 0 then wrongType n "variant identifier"
    else match all[i.toNat]? with
      | some a => .ok a
      | none => .error (.invalidValue n.description
          ("variant index 0 <= i < " ++ toString all.length))
  | n => wrongType n "variant identifier"

/-- Read nothing. -/
def readUnit (n : Node) : Read Unit :=
  match n with
  | .atom .null _ => .ok ()
  | .map [] => .ok ()
  | n => wrongType n "unit"

/-- Read one of some names, which may stand alone or as the only key of a map
that holds nothing. -/
def readEnum {α : Type} (name : α → String) (all : List α) (n : Node) : Read α :=
  match n with
  | .atom (.text _) _ => readVariant name all n
  | .map [(key, value)] => do
    let a ← readVariant name all key
    readUnit value
    return a
  | .map _ => .error (.invalidValue n.description "map with a single key")
  | n => wrongType n "string or map"

end FormLogic
