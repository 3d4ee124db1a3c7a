import FormLogic.Yaml.Cursor

/-!
# FormLogic.Yaml.Stretch

The texts of scalars in their three styles: plain, between quotes, and as a
block of lines.
-/

namespace FormLogic.Yaml

/-- The marks of flow collections. -/
def isFlowMark (c : Char) : Bool :=
  c == ',' || c == '[' || c == ']' || c == '{' || c == '}'

/-! ## Plain scalars -/

/-- Read the characters of a plain scalar up to a blank, a line end or a mark.
Inside flow collections a colon in front of a mark is refused. -/
def plainRun (flow : Bool) : (steps : Nat) → Cursor → Option (List Char × Cursor)
  | 0, c => some ([], c)
  | steps + 1, c =>
    match c.rest with
    | [] => some ([], c)
    | x :: rest =>
      if isBlank x || isBreak x then some ([], c)
      else if flow && x == ':' && ((rest.head?.map fun y => isFlowMark y || y == '?').getD false)
      then none
      else if (x == ':' && startsBlank rest) || (flow && isFlowMark x) then some ([], c)
      else (plainRun flow steps c.skip).map fun (xs, c) => (x :: xs, c)

/-- Read a plain scalar; `broken` tells whether the line ended behind it. -/
def plainScalar (flow : Bool) (indent : Nat) :
    (steps : Nat) → (text : List Char) → Gap → Cursor → Option (List Char × Bool × Cursor)
  | 0, text, g, c => some (text, g.broken, c)
  | steps + 1, text, g, c =>
    if c.atAnyMarker || c.head? == some '#' then some (text, g.broken, c)
    else do
      let (run, c) ← plainRun flow c.rest.length c
      let (text, g) := if run.isEmpty then (text, g) else (text ++ g.fold ++ run, Gap.none)
      if c.rest.isEmpty || !startsBlank c.rest then return (text, g.broken, c)
      let (g, c) ← readGap indent c.rest.length g c
      if !flow && c.column < indent then return (text, g.broken, c)
      plainScalar flow indent steps text g c

/-! ## Quoted scalars -/

/-- The character that a letter behind a backslash stands for. -/
def escape? : Char → Option Char
  | '0' => some '\x00'
  | 'a' => some '\x07'
  | 'b' => some '\x08'
  | 't' => some '\t'
  | '\t' => some '\t'
  | 'n' => some '\n'
  | 'v' => some '\x0b'
  | 'f' => some '\x0c'
  | 'r' => some '\r'
  | 'e' => some '\x1b'
  | ' ' => some ' '
  | '"' => some '"'
  | '/' => some '/'
  | '\\' => some '\\'
  | 'N' => some '\u0085'
  | '_' => some '\u00a0'
  | 'L' => some '\u2028'
  | 'P' => some '\u2029'
  | _ => none

/-- The number of hexadecimal digits behind a letter of an escape. -/
def escapeDigits? : Char → Option Nat
  | 'x' => some 2
  | 'u' => some 4
  | 'U' => some 8
  | _ => none

/-- The value of a hexadecimal digit. -/
def hexValue? (c : Char) : Option Nat :=
  if '0' ≤ c ∧ c ≤ '9' then some (c.toNat - '0'.toNat)
  else if 'a' ≤ c ∧ c ≤ 'f' then some (c.toNat - 'a'.toNat + 10)
  else if 'A' ≤ c ∧ c ≤ 'F' then some (c.toNat - 'A'.toNat + 10)
  else none

/-- The character with the code point that `count` digits give. -/
def hexChar? (count : Nat) (s : List Char) : Option Char :=
  let digits := s.take count
  if digits.length < count then none
  else do
    let n ← digits.foldlM (fun n c => (hexValue? c).map (n * 16 + ·)) 0
    if n < 0xD800 ∨ (0xDFFF < n ∧ n ≤ 0x10FFFF) then some (Char.ofNat n) else none

/-- Read the characters of a quoted scalar up to a blank, a line end or the
closing quote; the flag tells that an escaped line end stopped the run. -/
def quotedRun (single : Bool) : (steps : Nat) → Cursor → Option (List Char × Bool × Cursor)
  | 0, c => some ([], false, c)
  | steps + 1, c =>
    match c.rest with
    | [] => some ([], false, c)
    | x :: rest =>
      let go (y : Char) (c : Cursor) :=
        (quotedRun single steps c).map fun (xs, broken, c) => (y :: xs, broken, c)
      if isBlank x || isBreak x then some ([], false, c)
      else if single then
        if x = '\'' then
          if rest.head? = some '\'' then go '\'' (c.skipMany 2) else some ([], false, c)
        else go x c.skip
      else if x = '"' then some ([], false, c)
      else if x = '\\' then
        match rest with
        | [] => none
        | e :: more =>
          if isBreak e then some ([], true, (c.skip.takeBreak).2)
          else match escape? e with
            | some y => go y (c.skipMany 2)
            | none =>
              match escapeDigits? e with
              | none => none
              | some count => (hexChar? count more).bind fun y => go y (c.skipMany (2 + count))
      else go x c.skip

/-- Read a quoted scalar behind its opening quote. -/
def quotedScalar (single : Bool) :
    (steps : Nat) → (text : List Char) → Cursor → Option (List Char × Cursor)
  | 0, _, _ => none
  | steps + 1, text, c =>
    if c.atAnyMarker || c.rest.isEmpty then none
    else do
      let (run, escaped, c) ← quotedRun single c.rest.length c
      let text := text ++ run
      if !escaped && !startsBlank c.rest then return (text, c.skip)
      let g := if escaped then { Gap.none with broken := true } else Gap.none
      let (g, c) ← readGap 0 c.rest.length g c
      quotedScalar single steps (text ++ g.fold) c

/-! ## Blocks of lines -/

/-- What becomes of the line ends that a block ends with. -/
inductive Chomping where
  | strip
  | clip
  | keep
deriving DecidableEq, Repr

/-- Read the sign and the digit behind the mark of a block, in either order. -/
def blockHeader (c : Cursor) : Option (Chomping × Option Nat × Cursor) :=
  let sign (c : Cursor) : Option Chomping × Cursor := match c.head? with
    | some '+' => (some .keep, c.skip)
    | some '-' => (some .strip, c.skip)
    | _ => (none, c)
  let digit (c : Cursor) : Option (Option Nat × Cursor) := match c.head? with
    | some d =>
      if d = '0' then none
      else if d.isDigit then some (some (d.toNat - '0'.toNat), c.skip) else some (none, c)
    | none => some (none, c)
  do
    let (chomping, c) := sign c
    let (increment, c) ← digit c
    let (chomping, c) := if chomping.isNone ∧ increment.isSome then sign c else (chomping, c)
    return (chomping.getD .clip, increment, c)

/-- Read blank lines in front of a line of a block: the line ends, the greatest
indentation, and the place where the line starts. The indentation is not known
as long as it is zero. -/
def blockBreaks (indent : Nat) :
    (steps : Nat) → (breaks : List Char) → (deepest : Nat) → Cursor →
      Option (List Char × Nat × Cursor)
  | 0, breaks, deepest, c => some (breaks, deepest, c)
  | steps + 1, breaks, deepest, c =>
    let spaces := c.rest.takeWhile (· == ' ')
    let count := if indent = 0 then spaces.length else min spaces.length (indent - c.column)
    let c := c.skipMany count
    let deepest := max deepest c.column
    if (indent = 0 ∨ c.column < indent) ∧ c.head? = some '\t' then none
    else match c.head? with
      | some x =>
        if isBreak x then
          let (b, c) := c.takeBreak
          blockBreaks indent steps (breaks ++ b) deepest c
        else some (breaks, deepest, c)
      | none => some (breaks, deepest, c)

/-- What a block has read so far: its text, the end of its last line, the line
ends behind that, and whether the last line started with a blank. -/
structure BlockDraft where
  text : List Char
  lineEnd : List Char
  breaks : List Char
  blankStart : Bool

/-- Read the lines of a block that stand at its indentation. -/
def blockLines (literal : Bool) (indent : Nat) :
    (steps : Nat) → BlockDraft → Cursor → Option (BlockDraft × Cursor)
  | 0, d, c => some (d, c)
  | steps + 1, d, c =>
    if c.column ≠ indent ∨ c.rest.isEmpty then some (d, c)
    else do
      let blank := (c.head?.map isBlank).getD false
      let joint :=
        if !literal && d.lineEnd == ['\n'] && !d.blankStart && !blank then
          if d.breaks.isEmpty then [' '] else []
        else d.lineEnd
      let (line, c) := c.takeWhile fun x => !isBreak x
      let (lineEnd, c) := c.takeBreak
      let (breaks, _, c) ← blockBreaks indent (c.rest.length + 1) [] 0 c
      blockLines literal indent steps
        ⟨d.text ++ joint ++ d.breaks ++ line, lineEnd, breaks, blank⟩ c

/-- Read a block behind its mark, inside a collection at the indentation
`parent`, which is -1 outside all collections. -/
def blockScalar (literal : Bool) (parent : Int) (c : Cursor) :
    Option (List Char × Cursor) := do
  let (chomping, increment, c) ← blockHeader c
  let (_, c) := c.takeWhile isBlank
  let c := if c.head? = some '#' then (c.takeWhile fun x => !isBreak x).2 else c
  if !startsBreak c.rest then none
  let (_, c) := c.takeBreak
  let given := match increment with
    | some n => (max parent 0).toNat + n
    | none => 0
  let (breaks, deepest, c) ← blockBreaks given (c.rest.length + 1) [] 0 c
  let indent := if given = 0 then max (max deepest (parent + 1).toNat) 1 else given
  let (d, c) ← blockLines literal indent (c.rest.length + 1) ⟨[], [], breaks, false⟩ c
  let text := if chomping = .strip then d.text else d.text ++ d.lineEnd
  return (if chomping = .keep then text ++ d.breaks else text, c)

end FormLogic.Yaml
