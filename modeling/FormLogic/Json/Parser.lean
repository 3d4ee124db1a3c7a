import FormLogic.Json.Number

/-!
# FormLogic.Json.Parser

JSON values from text, as RFC 8259 has them. A reader takes a value off the
front of a text and gives the rest, or nothing when the text does not start
with a value.
-/

namespace FormLogic.Json

/-- Whether JSON allows the character between tokens. -/
def isSpace (c : Char) : Bool :=
  c == ' ' || c == '\t' || c == '\n' || c == '\r'

/-- The text behind the white space it starts with. -/
def skipSpace (s : List Char) : List Char :=
  s.dropWhile isSpace

/-- The value of a hexadecimal digit. -/
def hexDigit? (c : Char) : Option Nat :=
  if '0' ≤ c ∧ c ≤ '9' then some (c.toNat - '0'.toNat)
  else if 'a' ≤ c ∧ c ≤ 'f' then some (c.toNat - 'a'.toNat + 10)
  else if 'A' ≤ c ∧ c ≤ 'F' then some (c.toNat - 'A'.toNat + 10)
  else none

/-! ## Strings -/

/-- What a string is made of: characters, and halves of surrogate pairs. -/
inductive Unit16 where
  | char (c : Char)
  | half (n : Nat)
deriving DecidableEq, Repr

/-- The unit that an escape of four hexadecimal digits stands for. -/
def Unit16.ofNat (n : Nat) : Unit16 :=
  if 0xD800 ≤ n ∧ n ≤ 0xDFFF then .half n else .char (Char.ofNat n)

/-- The characters of a string, if no half of a pair stands alone. -/
def joinUnits : List Unit16 → Option (List Char)
  | [] => some []
  | .char c :: us => (joinUnits us).map (c :: ·)
  | .half hi :: .half lo :: us =>
    if hi < 0xDC00 ∧ 0xDC00 ≤ lo then
      (joinUnits us).map (Char.ofNat (0x10000 + (hi - 0xD800) * 0x400 + (lo - 0xDC00)) :: ·)
    else none
  | .half _ :: _ => none

/-- The character that a letter behind a backslash stands for. -/
def escape? : Char → Option Char
  | '"' => some '"'
  | '\\' => some '\\'
  | '/' => some '/'
  | 'b' => some '\x08'
  | 'f' => some '\x0c'
  | 'n' => some '\n'
  | 'r' => some '\r'
  | 't' => some '\t'
  | _ => none

/-- Read the inside of a string and its closing quote. -/
def readUnits : List Char → Option (List Unit16 × List Char)
  | [] => none
  | '"' :: rest => some ([], rest)
  | '\\' :: 'u' :: a :: b :: c :: d :: rest => do
    let n := (← hexDigit? a) * 4096 + (← hexDigit? b) * 256 + (← hexDigit? c) * 16 + (← hexDigit? d)
    let (us, rest) ← readUnits rest
    return (.ofNat n :: us, rest)
  | '\\' :: e :: rest => do
    let c ← escape? e
    let (us, rest) ← readUnits rest
    return (.char c :: us, rest)
  | c :: rest =>
    if c.toNat < 0x20 ∨ c = '\\' then none
    else do
      let (us, rest) ← readUnits rest
      return (.char c :: us, rest)

/-- Read a string behind its opening quote; the string is missing when half of
a surrogate pair stands alone in it. -/
def readString (s : List Char) : Option (Option String × List Char) :=
  (readUnits s).map fun (us, rest) => ((joinUnits us).map String.ofList, rest)

/-! ## Numbers -/

/-- The digits a text starts with. -/
def readDigits (s : List Char) : List Nat × List Char :=
  ((s.takeWhile Char.isDigit).map fun c => c.toNat - '0'.toNat, s.dropWhile Char.isDigit)

/-- The number that some digits stand for. -/
def digitsValue (ds : List Nat) : Nat :=
  ds.foldl (fun n d => n * 10 + d) 0

/-- Read digits, of which there is at least one. -/
def readDigits1 (s : List Char) : Option (List Nat × List Char) :=
  let (ds, rest) := readDigits s
  if ds.isEmpty then none else some (ds, rest)

/-- Read the digits in front of the point: a zero stands alone. -/
def readWhole : List Char → Option (List Nat × List Char)
  | '0' :: rest => if (rest.head?.map Char.isDigit).getD false then none else some ([0], rest)
  | s => readDigits1 s

/-- Read a fraction, if one follows. -/
def readFraction : List Char → Option (Option (List Nat) × List Char)
  | '.' :: rest => (readDigits1 rest).map fun (ds, rest) => (some ds, rest)
  | s => some (none, s)

/-- Read an exponent, if one follows. -/
def readExponent : List Char → Option (Option Int × List Char)
  | c :: rest =>
    if c = 'e' ∨ c = 'E' then
      match rest with
      | '-' :: rest => (readDigits1 rest).map fun (ds, rest) =>
        (some (-(digitsValue ds : Int)), rest)
      | '+' :: rest => (readDigits1 rest).map fun (ds, rest) => (some (digitsValue ds : Int), rest)
      | rest => (readDigits1 rest).map fun (ds, rest) => (some (digitsValue ds : Int), rest)
    else some (none, c :: rest)
  | [] => some (none, [])

/-- Read a number literal. -/
def readNumber (s : List Char) : Option (Json × List Char) := do
  let (negative, s) := match s with
    | '-' :: rest => (true, rest)
    | s => (false, s)
  let (whole, s) ← readWhole s
  let (fraction, s) ← readFraction s
  let (exponent, s) ← readExponent s
  let value := NumberLiteral.value? ⟨negative, whole, fraction, exponent⟩
  return (value.elim .unusable .number, s)

/-! ## Values -/

/-- Take a word off the front of a text. -/
def readWord (word : List Char) (value : Json) (s : List Char) : Option (Json × List Char) :=
  if word.isPrefixOf s then some (value, s.drop word.length) else none

/-- The object of some members; it has no value when one of its keys has none. -/
def objectOf (members : List (Option String × Json)) : Json :=
  match members.mapM fun (k?, j) => k?.map fun k => (k, j) with
  | some members => .object members
  | none => .unusable

mutual

/-- Read a value from its first character on. Every call inside spends a step,
and no value holds more calls than characters. -/
def readValue : (steps : Nat) → List Char → Option (Json × List Char)
  | 0, _ => none
  | steps + 1, s =>
    match s with
    | '"' :: rest => do
      let (text?, rest) ← readString rest
      return (text?.elim .unusable .string, rest)
    | '[' :: rest =>
      match skipSpace rest with
      | ']' :: rest => some (.array [], rest)
      | rest => do
        let (items, rest) ← readItems steps rest
        return (.array items, rest)
    | '{' :: rest =>
      match skipSpace rest with
      | '}' :: rest => some (.object [], rest)
      | rest => do
        let (members, rest) ← readMembers steps rest
        return (objectOf members, rest)
    | 'n' :: _ => readWord ['n', 'u', 'l', 'l'] .null s
    | 't' :: _ => readWord ['t', 'r', 'u', 'e'] (.bool true) s
    | 'f' :: _ => readWord ['f', 'a', 'l', 's', 'e'] (.bool false) s
    | _ => readNumber s

/-- Read items up to the closing bracket. -/
def readItems : (steps : Nat) → List Char → Option (List Json × List Char)
  | 0, _ => none
  | steps + 1, s => do
    let (item, rest) ← readValue steps s
    match skipSpace rest with
    | ',' :: rest =>
      let (items, rest) ← readItems steps (skipSpace rest)
      return (item :: items, rest)
    | ']' :: rest => return ([item], rest)
    | _ => none

/-- Read members up to the closing brace. -/
def readMembers : (steps : Nat) → List Char → Option (List (Option String × Json) × List Char)
  | 0, _ => none
  | steps + 1, s => do
    let '"' :: rest := s | none
    let (key?, rest) ← readString rest
    let ':' :: rest := skipSpace rest | none
    let (value, rest) ← readValue steps (skipSpace rest)
    match skipSpace rest with
    | ',' :: rest =>
      let (members, rest) ← readMembers steps (skipSpace rest)
      return ((key?, value) :: members, rest)
    | '}' :: rest => return ([(key?, value)], rest)
    | _ => none

end

/-- The JSON value of a whole text. -/
def ofText? (text : String) : Option Json := do
  let s := skipSpace text.toList
  let (j, rest) ← readValue (2 * s.length + 2) s
  if (skipSpace rest).isEmpty then some j else none

/-- The JSON value of a whole text in which every literal has a value and not
too many arrays and objects stand inside one another. -/
def ofReadableText? (text : String) : Option Json :=
  (ofText? text).filter (isReadable 0)

end FormLogic.Json
