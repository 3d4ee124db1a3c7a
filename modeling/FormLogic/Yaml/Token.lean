import FormLogic.Yaml.Stretch

/-!
# FormLogic.Yaml.Token

The tokens of a YAML text. Indentation shows as tokens of its own: a block
collection starts where a dash, a question mark or a key stands further to the
right than the collection around it, and ends where the text comes back to the
left. A key is known only by the colon behind it, so its token is put in front
of tokens that are already read.
-/

namespace FormLogic.Yaml

/-- The tokens of a YAML text. -/
inductive Token where
  | directive (handle given : String)
  | documentStart
  | documentEnd
  | blockSequenceStart
  | blockMappingStart
  | blockEnd
  | flowSequenceStart
  | flowSequenceEnd
  | flowMappingStart
  | flowMappingEnd
  | blockEntry
  | flowEntry
  | key
  | value
  | alias (name : String)
  | anchor (name : String)
  | tag (handle suffix : String)
  | scalar (text : String) (plain : Bool)
deriving DecidableEq, Repr

/-- A place where a key may have started: the number of tokens in front of it,
where it stands, and whether nothing else may stand there. -/
structure PossibleKey where
  tokens : Nat
  line : Nat
  column : Nat
  index : Nat
  required : Bool

/-- How far a text is read. -/
structure Progress where
  cursor : Cursor
  /-- The tokens so far. -/
  tokens : Array Token
  /-- The column of the innermost block collection; -1 outside all of them. -/
  indent : Int
  /-- The columns of the block collections around it. -/
  outer : List Int
  /-- For every flow collection around the place, and for the block around
  them, where a key may have started. -/
  keys : List (Option PossibleKey)
  /-- Whether a key may start here. -/
  keyAllowed : Bool

namespace Progress

/-- The start of a text. -/
def start (s : List Char) : Progress where
  cursor := .start s
  tokens := #[]
  indent := -1
  outer := []
  keys := [none]
  keyAllowed := true

/-- Whether the place is inside a flow collection. -/
def inFlow (p : Progress) : Bool := 1 < p.keys.length

/-- Put a token behind the others. -/
def emit (p : Progress) (t : Token) : Progress :=
  { p with tokens := p.tokens.push t }

/-- Put a token behind the others and move on. -/
def emitAt (p : Progress) (t : Token) (c : Cursor) : Progress :=
  { p with tokens := p.tokens.push t, cursor := c }

/-! ## Keys -/

/-- Give up a place where a key may have started; one that had to be a key is
an error. -/
def dropKey (p : Progress) : Option Progress :=
  match p.keys with
  | some k :: rest => if k.required then none else some { p with keys := none :: rest }
  | _ => some p

/-- Note that a key may start here. -/
def saveKey (p : Progress) : Option Progress :=
  if !p.keyAllowed then some p
  else do
    let p ← p.dropKey
    let required := !p.inFlow && p.indent == (p.cursor.column : Int)
    let k : PossibleKey :=
      ⟨p.tokens.size, p.cursor.line, p.cursor.column, p.cursor.index, required⟩
    return { p with keys := some k :: p.keys.tail }

/-- The greatest number of characters in a key whose colon is still to come. -/
def maxKeyLength : Nat := 1024

/-- Whether a colon at the cursor would come too late for the key. -/
def PossibleKey.isStale (k : PossibleKey) (c : Cursor) : Bool :=
  k.line < c.line || k.index + maxKeyLength < c.index

/-- Give up all places whose key would have to be over. -/
def dropStale (p : Progress) : Option Progress := do
  let keys ← p.keys.mapM fun k? =>
    match k? with
    | some k =>
      if PossibleKey.isStale k p.cursor then if k.required then none else some none
      else some (some k)
    | none => some none
  return { p with keys }

/-! ## Indentation -/

/-- Close the block collections that stand further to the right than `column`. -/
def unroll (p : Progress) (column : Int) : Progress :=
  if p.inFlow then p else go p column p.outer.length
where
  /-- Close at most as many collections as there are. -/
  go (p : Progress) (column : Int) : Nat → Progress
    | 0 => p
    | n + 1 =>
      if column < p.indent then
        go { p.emit .blockEnd with indent := p.outer.headD (-1), outer := p.outer.tail } column n
      else p

/-- Open a block collection at `column`, with its token in front of the token
number `place`, unless one is open there. -/
def roll (p : Progress) (column : Nat) (place : Nat) (t : Token) : Progress :=
  if p.inFlow || (column : Int) ≤ p.indent then p
  else
    { p with
      indent := column
      outer := p.indent :: p.outer
      tokens := p.tokens.insertIdx! place t }

/-! ## Steps -/

/-- Move on to the next token, past blanks, comments and line ends. -/
def toToken : (steps : Nat) → Progress → Progress
  | 0, p => p
  | steps + 1, p =>
    match p.cursor.head? with
    | some x =>
      if x = ' ' ∨ (x = '\t' ∧ (p.inFlow || !p.keyAllowed)) then
        toToken steps { p with cursor := p.cursor.skip }
      else if x = '#' then
        toToken steps { p with cursor := (p.cursor.takeWhile fun y => !isBreak y).2 }
      else if isBreak x then
        let p := { p with cursor := p.cursor.takeBreak.2 }
        toToken steps (if p.inFlow then p else { p with keyAllowed := true })
      else p
    | none => p

/-- Read a marker between documents. -/
def marker (p : Progress) (t : Token) : Option Progress := do
  let p ← (p.unroll (-1)).dropKey
  return { p with keyAllowed := false }.emitAt t (p.cursor.skipMany 3)

/-- Start a flow collection. -/
def openFlow (p : Progress) (t : Token) : Option Progress := do
  let p ← p.saveKey
  return { p with keys := none :: p.keys, keyAllowed := true }.emitAt t p.cursor.skip

/-- End a flow collection. -/
def closeFlow (p : Progress) (t : Token) : Option Progress := do
  let p ← p.dropKey
  let keys := if p.inFlow then p.keys.tail else p.keys
  return { p with keys, keyAllowed := false }.emitAt t p.cursor.skip

/-- Read the comma of a flow collection. -/
def flowEntry (p : Progress) : Option Progress := do
  let p ← p.dropKey
  return { p with keyAllowed := true }.emitAt .flowEntry p.cursor.skip

/-- Read the dash of a block sequence. -/
def blockEntry (p : Progress) : Option Progress := do
  if !p.inFlow && !p.keyAllowed then none
  let p ← (p.roll p.cursor.column p.tokens.size .blockSequenceStart).dropKey
  return { p with keyAllowed := true }.emitAt .blockEntry p.cursor.skip

/-- Read the question mark of a key. -/
def explicitKey (p : Progress) : Option Progress := do
  if !p.inFlow && !p.keyAllowed then none
  let p ← (p.roll p.cursor.column p.tokens.size .blockMappingStart).dropKey
  return { p with keyAllowed := !p.inFlow }.emitAt .key p.cursor.skip

/-- Read the colon of a value. -/
def valueMark (p : Progress) : Option Progress :=
  match p.keys with
  | some k :: rest =>
    let p := { p with tokens := p.tokens.insertIdx! k.tokens .key, keys := none :: rest }
    let p := p.roll k.column k.tokens .blockMappingStart
    some ({ p with keyAllowed := false }.emitAt .value p.cursor.skip)
  | _ => do
    if !p.inFlow && !p.keyAllowed then none
    let p := p.roll p.cursor.column p.tokens.size .blockMappingStart
    return { p with keyAllowed := !p.inFlow }.emitAt .value p.cursor.skip

/-- Whether a name may hold the character. -/
def isNameChar (c : Char) : Bool :=
  c.isAlphanum || c == '_' || c == '-'

/-- Read a name behind its mark. -/
def name (p : Progress) (token : String → Token) : Option Progress := do
  let p ← p.saveKey
  let (text, c) := p.cursor.skip.takeWhile isNameChar
  let ends := startsBlank c.rest
    || (c.head?.map fun y => ['?', ':', ',', ']', '}', '%', '@', '\x60'].contains y).getD false
  if text.isEmpty || !ends then none
  else return { p with keyAllowed := false }.emitAt (token (String.ofList text)) c

/-- Whether a tag may hold the character. -/
def isTagChar (c : Char) : Bool :=
  isNameChar c || ";/?:@&=+$.!~*'()%".toList.contains c

/-- Read a tag: a handle between exclamation marks, or one mark, and the rest;
or a whole tag between angle brackets, which has no handle. -/
def tagMark (p : Progress) : Option Progress := do
  let p ← p.saveKey
  let c := p.cursor.skip
  let (token, c) ← (do
    if c.head? = some '<' then
      let (uri, c) := c.skip.takeWhile fun x => isTagChar x || x == ',' || x == '[' || x == ']'
      if uri.isEmpty || c.head? != some '>' then none
      else return (Token.tag "" (String.ofList uri), c.skip)
    else
      let (word, behind) := c.takeWhile isNameChar
      if behind.head? = some '!' then
        let (suffix, c) := behind.skip.takeWhile isTagChar
        if suffix.isEmpty then none
        else return (Token.tag (String.ofList ('!' :: word ++ ['!'])) (String.ofList suffix), c)
      else
        let (suffix, c) := c.takeWhile isTagChar
        if suffix.isEmpty then return (Token.tag "" "!", c)
        else return (Token.tag "!" (String.ofList suffix), c))
  if startsBlank c.rest || (p.inFlow && c.head? == some ',') then
    return { p with keyAllowed := false }.emitAt token c
  else none

/-- Read a directive: `%TAG` with its handle and what it stands for, or `%YAML`,
which says nothing new. -/
def directive (p : Progress) : Option Progress := do
  let p ← (p.unroll (-1)).dropKey
  let (word, c) := p.cursor.skip.takeWhile isNameChar
  let (line, c) := c.takeWhile fun x => !isBreak x
  let parts := ((String.ofList line).splitOn " ").filter (!·.isEmpty)
  let parts := parts.takeWhile (!·.startsWith "#")
  let p := { p with keyAllowed := false, cursor := c }
  if word = ['Y', 'A', 'M', 'L'] then
    match parts with
    | [version] =>
      if version = "1.1" ∨ version = "1.2" then return p.emit (.directive "%YAML" version) else none
    | _ => none
  else if word = ['T', 'A', 'G'] then
    match parts with
    | [handle, given] => return p.emit (.directive handle given)
    | _ => none
  else none

/-- Read a scalar between quotes. -/
def quoted (p : Progress) (single : Bool) : Option Progress := do
  let p ← p.saveKey
  let c := p.cursor.skip
  let (text, c) ← quotedScalar single (c.rest.length + 1) [] c
  return { p with keyAllowed := false }.emitAt (.scalar (String.ofList text) false) c

/-- Read a block of lines. -/
def block (p : Progress) (literal : Bool) : Option Progress := do
  let p ← p.dropKey
  let (text, c) ← blockScalar literal p.indent p.cursor.skip
  return { p with keyAllowed := true }.emitAt (.scalar (String.ofList text) false) c

/-- Whether a plain scalar starts with `x` in front of `rest`. -/
def startsPlain (flow : Bool) (x : Char) (rest : List Char) : Bool :=
  !(isBlank x || "-?:,[]\x7b\x7d#&*!|>'\"%@".toList.contains x || x == '\x60')
    || (x == '-' && !((rest.head?.map isBlank).getD false))
    || (!flow && (x == '?' || x == ':') && !startsBlank rest)

/-- Read a plain scalar. -/
def plain (p : Progress) : Option Progress := do
  let p ← p.saveKey
  let (text, broken, c) ←
    plainScalar p.inFlow (p.indent + 1).toNat (p.cursor.rest.length + 1) [] .none p.cursor
  return { p with keyAllowed := broken }.emitAt (.scalar (String.ofList text) true) c

/-- Read the next token; the flag tells that the text is over. -/
def step (p : Progress) : Option (Progress × Bool) := do
  let p ← (toToken (p.cursor.rest.length + 1) p).dropStale
  let p := p.unroll p.cursor.column
  let more (q : Option Progress) := q.map fun p => (p, false)
  match p.cursor.rest with
  | [] => return (← (p.unroll (-1)).dropKey, true)
  | x :: rest =>
    let flow := p.inFlow
    if p.cursor.column = 0 ∧ x = '%' then more p.directive
    else if p.cursor.atMarker '-' then more (p.marker .documentStart)
    else if p.cursor.atMarker '.' then more (p.marker .documentEnd)
    else if x = '[' then more (p.openFlow .flowSequenceStart)
    else if x = '{' then more (p.openFlow .flowMappingStart)
    else if x = ']' then more (p.closeFlow .flowSequenceEnd)
    else if x = '}' then more (p.closeFlow .flowMappingEnd)
    else if x = ',' then more p.flowEntry
    else if x = '-' ∧ startsBlank rest then more p.blockEntry
    else if x = '?' ∧ (flow || startsBlank rest) then more p.explicitKey
    else if x = ':' ∧ (flow || startsBlank rest) then more p.valueMark
    else if x = '*' then more (p.name .alias)
    else if x = '&' then more (p.name .anchor)
    else if x = '!' then more p.tagMark
    else if x = '|' ∧ !flow then more (p.block true)
    else if x = '>' ∧ !flow then more (p.block false)
    else if x = '\'' then more (p.quoted true)
    else if x = '"' then more (p.quoted false)
    else if startsPlain flow x rest then more p.plain
    else none

/-- Read tokens to the end of the text; every step but the last takes a
character. -/
def run : (steps : Nat) → Progress → Option (Array Token)
  | 0, _ => none
  | steps + 1, p => do
    let (p, finished) ← p.step
    if finished then return p.tokens else run steps p

end Progress

/-- The tokens of a text. -/
def tokens? (text : String) : Option (List Token) :=
  let s := match text.toList with
    | '\ufeff' :: rest => rest
    | s => s
  if s.all isAllowed then
    (Progress.run (s.length + 2) (.start s)).map Array.toList
  else none

end FormLogic.Yaml
