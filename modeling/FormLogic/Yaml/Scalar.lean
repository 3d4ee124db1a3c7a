import FormLogic.Document.Node

/-!
# FormLogic.Yaml.Scalar

What a plain scalar means: nothing, a truth value, a number or itself. Only
`true` and `false`, in three spellings each, are truth values; integers may be
written in base 16, 8 or 2; and digits that start with a superfluous zero are
text.
-/

namespace FormLogic.Yaml

open Decimal

/-! ## Words -/

/-- Whether the text is a word for nothing. -/
def isNullWord (s : String) : Bool :=
  s == "null" || s == "Null" || s == "NULL" || s == "~"

/-- The truth value that a text names. -/
def boolWord? (s : String) : Option Bool :=
  if s == "true" || s == "True" || s == "TRUE" then some true
  else if s == "false" || s == "False" || s == "FALSE" then some false
  else none

/-! ## Integers -/

/-- The value of a digit. -/
def digitValue? (c : Char) : Option Nat :=
  if '0' ≤ c ∧ c ≤ '9' then some (c.toNat - '0'.toNat)
  else if 'a' ≤ c ∧ c ≤ 'f' then some (c.toNat - 'a'.toNat + 10)
  else if 'A' ≤ c ∧ c ≤ 'F' then some (c.toNat - 'A'.toNat + 10)
  else none

/-- The natural number that a text of digits stands for. -/
def naturalIn? (base : Nat) (s : List Char) : Option Nat :=
  if s.isEmpty then none
  else s.foldlM (fun n c => do
    let d ← digitValue? c
    if d < base then some (n * base + d) else none) 0

/-- Whether the text is digits behind a superfluous zero. -/
def isPaddedDigits (s : List Char) : Bool :=
  let s := match s with
    | '-' :: rest => rest
    | '+' :: rest => rest
    | s => s
  match s with
  | '0' :: c :: rest => (c :: rest).all Char.isDigit
  | _ => false

/-- The natural number that a text without a sign stands for, in the base that
it starts with. -/
def magnitude? : List Char → Option Nat
  | '0' :: 'x' :: rest => naturalIn? 16 rest
  | '0' :: 'o' :: rest => naturalIn? 8 rest
  | '0' :: 'b' :: rest => naturalIn? 2 rest
  | s => if isPaddedDigits s then none else naturalIn? 10 s

/-- The integer that a text stands for. -/
def integer? (s : List Char) : Option Int :=
  match s with
  | '+' :: rest => (magnitude? rest).map Int.ofNat
  | '-' :: rest => (magnitude? rest).map fun n => -(n : Int)
  | s => (magnitude? s).map Int.ofNat

/-! ## Floating-point numbers -/

/-- Digits with an optional exponent behind them, as a number of digits and the
power of ten they are counted in. -/
def decimalTail? (digits : Nat) (scale : Int) : List Char → Option (Nat × Int)
  | [] => some (digits, scale)
  | e :: rest =>
    if e = 'e' ∨ e = 'E' then
      match rest with
      | '-' :: ds => (naturalIn? 10 ds).map fun n => (digits, scale - n)
      | '+' :: ds => (naturalIn? 10 ds).map fun n => (digits, scale + n)
      | ds => (naturalIn? 10 ds).map fun n => (digits, scale + n)
    else none

/-- The decimal that a text without a sign stands for. Digits may be missing on
one side of the point. -/
def decimal? (s : List Char) : Option (Nat × Int) :=
  let whole := s.takeWhile Char.isDigit
  let rest := s.dropWhile Char.isDigit
  let (fraction, rest) := match rest with
    | '.' :: more => (more.takeWhile Char.isDigit, more.dropWhile Char.isDigit)
    | rest => ([], rest)
  match naturalIn? 10 (whole ++ fraction) with
  | none => none
  | some n => decimalTail? n (-fraction.length) rest

/-- The floating-point number that a text stands for. A decimal beyond all
floating-point numbers is none. -/
def real? (s : List Char) : Option Binary64 :=
  let unsigned := match s with
    | '+' :: rest => rest
    | s => s
  if unsigned = ['.', 'i', 'n', 'f'] ∨ unsigned = ['.', 'I', 'n', 'f'] ∨
      unsigned = ['.', 'I', 'N', 'F'] then some (.infinite false)
  else if s = ['-', '.', 'i', 'n', 'f'] ∨ s = ['-', '.', 'I', 'n', 'f'] ∨
      s = ['-', '.', 'I', 'N', 'F'] then some (.infinite true)
  else if s = ['.', 'n', 'a', 'n'] ∨ s = ['.', 'N', 'a', 'N'] ∨ s = ['.', 'N', 'A', 'N'] then
    some .nan
  else
    let (negative, body) := match s with
      | '-' :: rest => (true, rest)
      | '+' :: rest => (false, rest)
      | s => (false, s)
    match decimal? body with
    | none => none
    | some (digits, scale) =>
      match Binary64.ofDecimal negative digits scale with
      | .infinite _ => none
      | x => some x

/-! ## Meaning -/

/-- What an integer means: one beyond 64 bits is unusable, and one beyond 128
bits is no integer. -/
def integerAtom? (i : Int) : Option Atom :=
  if -0x8000000000000000 ≤ i ∧ i ≤ 0xFFFFFFFFFFFFFFFF then some (.number (.integer i))
  else if -0x80000000000000000000000000000000 ≤ i ∧
      i ≤ 0xFFFFFFFFFFFFFFFFFFFFFFFFFFFFFFFF then some .unusable
  else none

/-- What a plain scalar means. -/
def plainMeaning (s : String) : Atom :=
  let cs := s.toList
  if cs.isEmpty || isNullWord s then .null
  else match boolWord? s with
    | some b => .bool b
    | none =>
      match (integer? cs).bind integerAtom? with
      | some a => a
      | none =>
        if isPaddedDigits cs then .text s
        else match real? cs with
          | some x => .number (.real x)
          | none => .text s

/-- The tags of the core schema start with this. -/
def corePart : String := "tag:yaml.org,2002:"

/-- The atom of a scalar with its tag, if it has one. A tag of the
application's own makes the atom unusable as a value. -/
def scalarAtom (tag : Option String) (s : String) (plain : Bool) : Atom :=
  match tag with
  | none => if plain then plainMeaning s else .text s
  | some tag =>
    if tag = corePart ++ "bool" then
      match boolWord? s with
      | some b => .bool b
      | none => .unusable
    else if tag = corePart ++ "int" then ((integer? s.toList).bind integerAtom?).getD .unusable
    else if tag = corePart ++ "float" then
      match real? s.toList with
      | some x => .number (.real x)
      | none => .unusable
    else if tag = corePart ++ "null" then if isNullWord s then .null else .unusable
    else if tag.startsWith "!" then .unusable
    else .text s

end FormLogic.Yaml
