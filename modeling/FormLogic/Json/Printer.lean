import FormLogic.Json.Basic

/-!
# FormLogic.Json.Printer

JSON values as text, compact or laid out over lines with two blanks for each
level. Strings escape what JSON requires and leave everything else as it is.
-/

namespace FormLogic.Json

open Decimal

/-- A hexadecimal digit in small letters. -/
def hexChar (n : Nat) : Char :=
  Nat.digitChar n

/-- A character as it stands in a string. -/
def escapeChar (c : Char) : List Char :=
  if c = '"' then ['\\', '"']
  else if c = '\\' then ['\\', '\\']
  else if c = '\x08' then ['\\', 'b']
  else if c = '\x0c' then ['\\', 'f']
  else if c = '\n' then ['\\', 'n']
  else if c = '\r' then ['\\', 'r']
  else if c = '\t' then ['\\', 't']
  else if c.toNat < 0x20 then
    ['\\', 'u', '0', '0', hexChar (c.toNat / 16), hexChar (c.toNat % 16)]
  else [c]

/-- A text as a string literal. -/
def renderString (s : String) : List Char :=
  '"' :: s.toList.flatMap escapeChar ++ ['"']

/-- A number; one that is not finite has no literal and becomes `null`. -/
def renderNumber : JsonNumber → List Char
  | .real (.infinite _) => ['n', 'u', 'l', 'l']
  | .real .nan => ['n', 'u', 'l', 'l']
  | n => n.text

/-- A boolean. -/
def renderBool (b : Bool) : List Char :=
  if b then ['t', 'r', 'u', 'e'] else ['f', 'a', 'l', 's', 'e']

mutual

/-- The compact text of a value. -/
def render : Json → List Char
  | .null => ['n', 'u', 'l', 'l']
  | .bool b => renderBool b
  | .number n => renderNumber n
  | .string s => renderString s
  | .array items => '[' :: renderItems items ++ [']']
  | .object members => '{' :: renderMembers members ++ ['}']
  | .unusable => ['n', 'u', 'l', 'l']

/-- The compact texts of some items. -/
def renderItems : List Json → List Char
  | [] => []
  | [j] => render j
  | j :: k :: js => render j ++ ',' :: renderItems (k :: js)

/-- The compact texts of some members. -/
def renderMembers : List (String × Json) → List Char
  | [] => []
  | [(k, j)] => renderString k ++ ':' :: render j
  | (k, j) :: m :: ms => renderString k ++ ':' :: render j ++ ',' :: renderMembers (m :: ms)

end

/-- The compact text of a value. -/
def text (j : Json) : String :=
  String.ofList j.render

/-! ## Over lines -/

/-- A line break with the indentation of a level. -/
def newline (level : Nat) : List Char :=
  '\n' :: List.replicate (2 * level) ' '

mutual

/-- The text of a value over lines, inside `level` arrays and objects. -/
def renderPretty (level : Nat) : Json → List Char
  | .array [] => ['[', ']']
  | .array (j :: js) => '[' :: renderPrettyItems (level + 1) (j :: js) ++ newline level ++ [']']
  | .object [] => ['{', '}']
  | .object (m :: ms) =>
    '{' :: renderPrettyMembers (level + 1) (m :: ms) ++ newline level ++ ['}']
  | .null => ['n', 'u', 'l', 'l']
  | .bool b => renderBool b
  | .number n => renderNumber n
  | .string s => renderString s
  | .unusable => ['n', 'u', 'l', 'l']

/-- The lines of some items. -/
def renderPrettyItems (level : Nat) : List Json → List Char
  | [] => []
  | [j] => newline level ++ renderPretty level j
  | j :: k :: js =>
    newline level ++ renderPretty level j ++ ',' :: renderPrettyItems level (k :: js)

/-- The lines of some members. -/
def renderPrettyMembers (level : Nat) : List (String × Json) → List Char
  | [] => []
  | [(k, j)] => newline level ++ renderString k ++ ':' :: ' ' :: renderPretty level j
  | (k, j) :: m :: ms =>
    newline level ++ renderString k ++ ':' :: ' ' :: renderPretty level j
      ++ ',' :: renderPrettyMembers level (m :: ms)

end

/-- The text of a value over lines. -/
def prettyText (j : Json) : String :=
  String.ofList (j.renderPretty 0)

end FormLogic.Json
