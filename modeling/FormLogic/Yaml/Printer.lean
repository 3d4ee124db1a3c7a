import FormLogic.Value.Json
import FormLogic.Yaml.Cursor
import FormLogic.Yaml.Scalar

/-!
# FormLogic.Yaml.Printer

Answers as YAML, over lines. A text stands plain where it reads back as itself,
between single quotes where it would mean something else, as a literal block
where it has several lines, and between double quotes where nothing else will
do.
-/

namespace FormLogic.Yaml

/-! ## The look of a text -/

/-- Whether the character can stand in a text without an escape. -/
def isPrintable (c : Char) : Bool :=
  let n := c.toNat
  n == 0x0A || (0x20 ≤ n && n ≤ 0x7E) || (0xA0 ≤ n && n ≤ 0xD7FF)
    || (0xE000 ≤ n && n ≤ 0xFFFD && n != 0xFEFF) || 0x10000 ≤ n

/-- Whether a character that starts a text makes it look like something else. -/
def isStartMark (c : Char) : Bool :=
  "#,[]\x7b\x7d&*!|>'\"%@".toList.contains c || c == '\x60'

/-- Whether a block mark stands in a text behind its first character, which
follows a blank where `spaced` holds. -/
def holdsMark (spaced : Bool) : List Char → Bool
  | [] => false
  | c :: rest =>
    (c == ':' && startsBlank rest) || (c == '#' && spaced)
      || holdsMark (isBlank c || isBreak c) rest

/-- Whether a text looks like something else outside flow collections. -/
def looksMarked : List Char → Bool
  | [] => false
  | c :: rest =>
    ['-', '-', '-'].isPrefixOf (c :: rest) || ['.', '.', '.'].isPrefixOf (c :: rest)
      || isStartMark c || ((c == '?' || c == ':' || c == '-') && startsBlank rest)
      || holdsMark (isBlank c || isBreak c) rest

/-- Whether two neighbours of a text satisfy `p` and `q`. -/
def hasNeighbours (p q : Char → Bool) : List Char → Bool
  | c :: d :: rest => (p c && q d) || hasNeighbours p q (d :: rest)
  | _ => false

/-- Whether a text has several lines. -/
def isMultiline (s : List Char) : Bool := s.any isBreak

/-- Whether a text has characters or blanks that only double quotes keep. -/
def needsEscapes (s : List Char) : Bool :=
  s.any (!isPrintable ·) || hasNeighbours (· == ' ') isBreak s

/-- Whether a text starts or ends with a blank or a line end. -/
def hasBareEnds (s : List Char) : Bool :=
  let p (c : Char) := c == ' ' || isBreak c
  (s.head?.map p).getD false || (s.getLast?.map p).getD false

/-- The ways to write a text. -/
inductive Style where
  | plain
  | single
  | double
  | literal
deriving DecidableEq, Repr

/-- Whether a plain text would mean something else, or might be taken for a
number. -/
def isAmbiguous (s : List Char) : Bool :=
  match plainMeaning (String.ofList s) with
  | .text _ => isPaddedDigits s
  | _ => true

/-- The way to write a text, where `simple` tells that it is a key of one line. -/
def styleOf (simple : Bool) (s : List Char) : Style :=
  if s.contains '\n' then
    if needsEscapes s || s.getLast? == some ' ' || simple then .double else .literal
  else if simple && isMultiline s then .double
  else if s.isEmpty then .single
  else
    let plain := !isAmbiguous s && !looksMarked s && !isMultiline s && !hasBareEnds s
      && !needsEscapes s
    if plain then .plain
    else if needsEscapes s || hasNeighbours isBreak (· == ' ') s then .double
    else .single

/-! ## Writing a text -/

/-- Indentation. -/
def blanks (n : Nat) : List Char := List.replicate n ' '

/-- Hexadecimal digits in capitals, at least `width` of them. -/
def hexDigits (width n : Nat) : List Char :=
  let ds := (Nat.toDigits 16 n).map Char.toUpper
  List.replicate (width - ds.length) '0' ++ ds

/-- A character between double quotes. -/
def escapeChar (c : Char) : List Char :=
  if c = '"' then ['\\', '"']
  else if c = '\\' then ['\\', '\\']
  else if isPrintable c && !isBreak c then [c]
  else
    let n := c.toNat
    if n = 0x00 then ['\\', '0']
    else if n = 0x07 then ['\\', 'a']
    else if n = 0x08 then ['\\', 'b']
    else if n = 0x09 then ['\\', 't']
    else if n = 0x0A then ['\\', 'n']
    else if n = 0x0B then ['\\', 'v']
    else if n = 0x0C then ['\\', 'f']
    else if n = 0x0D then ['\\', 'r']
    else if n = 0x1B then ['\\', 'e']
    else if n = 0x85 then ['\\', 'N']
    else if n = 0x2028 then ['\\', 'L']
    else if n = 0x2029 then ['\\', 'P']
    else if n ≤ 0xFF then '\\' :: 'x' :: hexDigits 2 n
    else if n ≤ 0xFFFF then '\\' :: 'u' :: hexDigits 4 n
    else '\\' :: 'U' :: hexDigits 8 n

/-- The characters of a text with indentation in front of what follows a line
end; `fresh` tells that the text follows one. -/
def indented (indent : Nat) (fresh : Bool) : List Char → List Char
  | [] => []
  | c :: rest =>
    if isBreak c then c :: indented indent true rest
    else (if fresh then blanks indent else []) ++ c :: indented indent false rest

/-- The mark of a literal block: the indentation where the text starts with a
blank, and what becomes of the line ends behind it. -/
def literalHeader (s : List Char) : List Char :=
  let start := match s.head? with
    | some c => if c = ' ' ∨ isBreak c then ['2'] else []
    | none => []
  let chomp := match s.reverse with
    | [] => ['-']
    | [c] => if isBreak c then ['+'] else ['-']
    | c :: d :: _ => if isBreak c then if isBreak d then ['+'] else [] else ['-']
  '|' :: start ++ chomp

/-- A text in a style, its lines indented by `indent`. -/
def writeText (style : Style) (indent : Nat) (s : List Char) : List Char :=
  match style with
  | .plain => s
  | .single =>
    '\'' :: indented indent false (s.flatMap fun c => if c = '\'' then [c, c] else [c]) ++ ['\'']
  | .double => '"' :: s.flatMap escapeChar ++ ['"']
  | .literal => literalHeader s ++ '\n' :: indented indent true s

/-- A text as a value, its lines indented by `indent`. -/
def writeScalar (indent : Nat) (s : String) : List Char :=
  writeText (styleOf false s.toList) indent s.toList

/-! ## Writing answers -/

/-- Start a new line, unless one has just started. -/
def onNewLine (s : List Char) : List Char :=
  if s.isEmpty || s.getLast? == some '\n' then s else s ++ ['\n']

/-- Whether a key can stand in front of its colon. -/
def isSimpleKey (key : String) : Bool :=
  !isMultiline key.toList && key.utf8ByteSize ≤ 128

/-- Where the first line of an entry goes: behind the mark in front of it, or on
a line of its own. -/
def startEntry (indent : Nat) (inline : Bool) (before : List Char) : List Char :=
  if inline then before ++ [' '] else onNewLine before ++ blanks indent

mutual

/-- Put a value behind `before`, inside a collection at `indent`. Behind a key
on the same line a collection starts on a new line, and a sequence needs no
indentation of its own. -/
def writeValue (indent : Nat) (behindKey : Bool) (before : List Char) : Json → List Char
  | .null => before ++ " null".toList
  | .bool b => before ++ ' ' :: (toString b).toList
  | .number n => before ++ ' ' :: n.text
  | .string s => before ++ ' ' :: writeScalar (indent + 2) s
  | .array [] => before ++ " []".toList
  | .array (j :: js) =>
    writeItems (if behindKey then indent else indent + 2) (!behindKey) before (j :: js)
  | .object [] => before ++ " \x7b\x7d".toList
  | .object (m :: ms) => writeMembers (indent + 2) (!behindKey) before (m :: ms)
  | .unusable => before ++ " null".toList

/-- Put items one below the other behind `before`. -/
def writeItems (indent : Nat) (inline : Bool) (before : List Char) : List Json → List Char
  | [] => before
  | j :: js =>
    writeItems indent false
      (writeValue indent false (startEntry indent inline before ++ ['-']) j) js

/-- Put members one below the other behind `before`. -/
def writeMembers (indent : Nat) (inline : Bool) (before : List Char) :
    List (String × Json) → List Char
  | [] => before
  | (k, j) :: ms =>
    let start := startEntry indent inline before
    let key := writeText (styleOf (isSimpleKey k) k.toList) (indent + 2) k.toList
    let done :=
      if isSimpleKey k then writeValue indent true (start ++ key ++ [':']) j
      else
        writeValue indent false
          (onNewLine (start ++ '?' :: ' ' :: key) ++ blanks indent ++ [':']) j
    writeMembers indent false done ms

end

/-- Answers as a YAML text, in their order. -/
def stateText (s : State) : String :=
  match Value.toJsonMembers s.entries with
  | [] => "\x7b\x7d\n"
  | ms => String.ofList (onNewLine (writeMembers 0 false [] ms))

end FormLogic.Yaml
