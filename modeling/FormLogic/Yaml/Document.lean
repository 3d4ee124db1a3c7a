import FormLogic.Form.Reader
import FormLogic.Value.Json
import FormLogic.Yaml.Scalar
import FormLogic.Yaml.Token

/-!
# FormLogic.Yaml.Document

Documents from the tokens of a YAML text, and forms and answers from documents.
A text holds one document. An alias stands for the node that its anchor names;
the anchor names nothing while its own node is being read.
-/

namespace FormLogic.Yaml

/-! ## Nodes from tokens -/

/-- What is left of the tokens, the nodes that anchors name, and what the
handles of tags stand for. -/
structure Remaining where
  tokens : List Token
  anchors : List (String × Option Node)
  handles : List (String × String)

/-- A reader of tokens, which may refuse them. -/
abbrev NodeReader := StateT Remaining Option

/-- The token in front. -/
def peek? : NodeReader (Option Token) :=
  return (← get).tokens.head?

/-- Take the token in front. -/
def advance : NodeReader Unit :=
  modify fun r => { r with tokens := r.tokens.tail }

/-- Refuse the tokens. -/
def refuse {α : Type} : NodeReader α :=
  failure

/-- Take a token if it is in front. -/
def accept (t : Token) : NodeReader Bool := do
  if (← peek?) = some t then
    advance
    return true
  else return false

/-- Take a token that must be in front. -/
def demand (t : Token) : NodeReader Unit := do
  if !(← accept t) then refuse

/-- A node of which nothing is written. -/
def voidNode : Node := .atom .null (some ⟨"", true⟩)

/-- The tag that a handle and a suffix stand for. -/
def resolveTag (handles : List (String × String)) (handle suffix : String) : Option String :=
  match handles.find? (·.1 == handle) with
  | some (_, given) => some (given ++ suffix)
  | none =>
    if handle = "" then some suffix
    else if handle = "!" then some ("!" ++ suffix)
    else if handle = "!!" then some (corePart ++ suffix)
    else none

/-- The anchor and the tag in front of a node. -/
structure Properties where
  anchor : Option String
  tag : Option String

/-- Read an anchor and a tag, in either order, as far as they are there. -/
def properties : NodeReader Properties := do
  let anchor : NodeReader (Option String) := do
    match ← peek? with
    | some (.anchor name) => advance; return some name
    | _ => return none
  let tag : NodeReader (Option String) := do
    match ← peek? with
    | some (.tag handle suffix) =>
      advance
      match resolveTag (← get).handles handle suffix with
      | some t => return some t
      | none => refuse
    | _ => return none
  let a ← anchor
  let t ← tag
  let a ← if a.isNone then anchor else pure a
  return ⟨a, t⟩

/-- Give a collection its tag: one of the application's own stays with it. -/
def withTag (tag : Option String) (n : Node) : Node :=
  if (tag.map (·.startsWith "!")).getD false then .tagged n else n

/-- Whether a token ends an entry of a collection that is written without
brackets, so that the entry is void in front of it. -/
def endsBlockPart : Option Token → Bool
  | some .key => true
  | some .value => true
  | some .blockEnd => true
  | none => true
  | _ => false

mutual

/-- Read a node. Block collections are allowed where `block` holds, and a
sequence at the column of the mapping around it where `level` holds. -/
def node (block level : Bool) : (steps : Nat) → NodeReader Node
  | 0 => refuse
  | steps + 1 => do
    if let some (.alias name) ← peek? then
      advance
      match (← get).anchors.find? (·.1 == name) with
      | some (_, some n) => return n
      | _ => refuse
    let props ← properties
    if let some name := props.anchor then
      modify fun r => { r with anchors := (name, none) :: r.anchors }
    let n ← content block level props steps
    if let some name := props.anchor then
      modify fun r => { r with anchors := (name, some n) :: r.anchors }
    return n

/-- Read a node behind its anchor and tag. -/
def content (block level : Bool) (props : Properties) : (steps : Nat) → NodeReader Node
  | 0 => refuse
  | steps + 1 => do
    let void : NodeReader Node := do
      if props.anchor.isSome || props.tag.isSome then
        return .atom (scalarAtom props.tag "" true) (some ⟨"", true⟩)
      else refuse
    match ← peek? with
    | some (.scalar text plain) =>
      advance
      return .atom (scalarAtom props.tag text plain) (some ⟨text, plain⟩)
    | some .flowSequenceStart =>
      advance
      return withTag props.tag (.seq (← flowItems true steps))
    | some .flowMappingStart =>
      advance
      return withTag props.tag (.map (← flowMembers true steps))
    | some .blockSequenceStart =>
      if block then
        advance
        return withTag props.tag (.seq (← blockItems steps))
      else void
    | some .blockMappingStart =>
      if block then
        advance
        return withTag props.tag (.map (← blockMembers steps))
      else void
    | some .blockEntry =>
      if level then return withTag props.tag (.seq (← levelItems steps)) else void
    | _ => void

/-- Read the items of a block sequence and its end. -/
def blockItems : (steps : Nat) → NodeReader (List Node)
  | 0 => refuse
  | steps + 1 => do
    if ← accept .blockEnd then return []
    demand .blockEntry
    let next ← peek?
    let item ← if next = some .blockEntry ∨ next = some .blockEnd ∨ next = none
      then pure voidNode else node true false steps
    return item :: (← blockItems steps)

/-- Read the items of a sequence that has no end of its own. -/
def levelItems : (steps : Nat) → NodeReader (List Node)
  | 0 => refuse
  | steps + 1 => do
    if !(← accept .blockEntry) then return []
    let next ← peek?
    let item ← if next = some .blockEntry ∨ endsBlockPart next
      then pure voidNode else node true false steps
    return item :: (← levelItems steps)

/-- Read the members of a block mapping and its end. -/
def blockMembers : (steps : Nat) → NodeReader (List (Node × Node))
  | 0 => refuse
  | steps + 1 => do
    if ← accept .blockEnd then return []
    let key ← if ← accept .key then
        if endsBlockPart (← peek?) then pure voidNode else node true true steps
      else refuse
    let value ← if ← accept .value then
        if endsBlockPart (← peek?) then pure voidNode else node true true steps
      else pure voidNode
    return (key, value) :: (← blockMembers steps)

/-- Read the items of a flow sequence and its end. A key makes an item a mapping
of one member. -/
def flowItems (first : Bool) : (steps : Nat) → NodeReader (List Node)
  | 0 => refuse
  | steps + 1 => do
    if ← accept .flowSequenceEnd then return []
    if !first then demand .flowEntry
    if ← accept .flowSequenceEnd then return []
    let item ← if ← accept .key then do
        let next ← peek?
        let key ← if next = some .value ∨ next = some .flowEntry ∨ next = some .flowSequenceEnd
          then pure voidNode else node false false steps
        let value ← flowValue .flowSequenceEnd steps
        pure (.map [(key, value)])
      else node false false steps
    return item :: (← flowItems false steps)

/-- Read the members of a flow mapping and its end. -/
def flowMembers (first : Bool) : (steps : Nat) → NodeReader (List (Node × Node))
  | 0 => refuse
  | steps + 1 => do
    if ← accept .flowMappingEnd then return []
    if !first then demand .flowEntry
    if ← accept .flowMappingEnd then return []
    let member ← if ← accept .key then do
        let next ← peek?
        let key ← if next = some .value ∨ next = some .flowEntry ∨ next = some .flowMappingEnd
          then pure voidNode else node false false steps
        pure (key, ← flowValue .flowMappingEnd steps)
      else do
        pure (← node false false steps, voidNode)
    return member :: (← flowMembers false steps)

/-- Read a value inside a flow collection that ends with `closing`. -/
def flowValue (closing : Token) : (steps : Nat) → NodeReader Node
  | 0 => refuse
  | steps + 1 => do
    if ← accept .value then
      let next ← peek?
      if next = some .flowEntry ∨ next = some closing then return voidNode
      else node false false steps
    else return voidNode

end

/-! ## Documents -/

/-- Take the directives in front of a document. -/
def directives : (steps : Nat) → NodeReader Unit
  | 0 => refuse
  | steps + 1 => do
    match ← peek? with
    | some (.directive handle given) =>
      advance
      modify fun r => { r with handles := (handle, given) :: r.handles }
      directives steps
    | _ => return ()

/-- Take the ends of documents. -/
def documentEnds : (steps : Nat) → NodeReader Unit
  | 0 => refuse
  | steps + 1 => do
    if ← accept .documentEnd then documentEnds steps

/-- Read the only document of a text; a text without one holds a void node. -/
def document (steps : Nat) : NodeReader Node := do
  documentEnds steps
  let before ← get
  directives steps
  let directed := (← get).tokens.length != before.tokens.length
  let marked ← accept .documentStart
  if directed && !marked then refuse
  let next ← peek?
  let n ← if next.isNone ∨ next = some .documentEnd ∨ next = some .documentStart
    then pure voidNode else node true false steps
  documentEnds steps
  if (← peek?).isSome then refuse
  return n

/-- The greatest number of collections inside one another. -/
def maxDepth : Nat := 128

mutual

/-- The number of collections inside one another. -/
def nodeDepth : Node → Nat
  | .atom .. => 0
  | .seq items => itemsDepth items + 1
  | .map members => membersDepth members + 1
  | .tagged inner => nodeDepth inner

/-- The greatest depth of some items. -/
def itemsDepth : List Node → Nat
  | [] => 0
  | n :: ns => max (nodeDepth n) (itemsDepth ns)

/-- The greatest depth of some members. -/
def membersDepth : List (Node × Node) → Nat
  | [] => 0
  | (k, n) :: ms => max (max (nodeDepth k) (nodeDepth n)) (membersDepth ms)

end

/-- The document of a text. -/
def document? (text : String) : Option Node := do
  let tokens ← tokens? text
  -- Reading a node spends at most three steps on each of its tokens.
  let n ← ((document (3 * tokens.length + 8)).run ⟨tokens, [], []⟩).map (·.1)
  if nodeDepth n ≤ maxDepth then some n else none

/-! ## Answers and forms -/

/-- A number as JSON; one that is not finite becomes null. -/
def numberJson : JsonNumber → Json
  | .real (.infinite _) => .null
  | .real .nan => .null
  | n => .number n

/-- The text of a key. -/
def keyText? : Node → Option String
  | .atom _ (some spelling) => some spelling.text
  | .atom (.text s) none => some s
  | _ => none

mutual

/-- A document as a JSON value. -/
def toJson? : Node → Option Json
  | .atom .null _ => some .null
  | .atom (.bool b) _ => some (.bool b)
  | .atom (.number n) _ => some (numberJson n)
  | .atom (.text s) _ => some (.string s)
  | .atom .unusable _ => none
  | .seq items => (toJsonItems? items).map .array
  | .map members => (toJsonMembers? members).map .object
  | .tagged _ => none

/-- Documents as JSON values. -/
def toJsonItems? : List Node → Option (List Json)
  | [] => some []
  | n :: ns => do return (← toJson? n) :: (← toJsonItems? ns)

/-- Members of a document as members of a JSON object. -/
def toJsonMembers? : List (Node × Node) → Option (List (String × Json))
  | [] => some []
  | (k, n) :: ms => do return ((← keyText? k), (← toJson? n)) :: (← toJsonMembers? ms)

end

end FormLogic.Yaml

namespace FormLogic

/-- The answers of a YAML text, in ascending order of names. -/
def State.ofYamlText? (text : String) : Read State :=
  match (Yaml.document? text).bind Yaml.toJson? with
  | none => .error .notWellFormed
  | some j => State.ofJson? j.sorted

/-- The form that a YAML text describes. Its structures are maps. -/
def Form.ofYamlText? (text : String) : Read Form :=
  match Yaml.document? text with
  | none => .error .notWellFormed
  | some n => readForm false n

end FormLogic
