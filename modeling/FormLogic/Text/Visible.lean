import FormLogic.Text.Case.Ranges
import FormLogic.Text.Visible.Ranges

/-!
# FormLogic.Text.Visible

Showing a text in a message: between double quotes, with an escape for every
character that would not be seen.
-/

namespace FormLogic.Text

/-- Whether the character shows something of its own. -/
def isVisible (c : Char) : Bool :=
  if c.toNat < 0x7F then 0x20 ≤ c.toNat else !inRanges invisibleRanges c.toNat

/-- A character as it is shown between double quotes. -/
def showChar (c : Char) : List Char :=
  if c = '"' then ['\\', '"']
  else if c = '\\' then ['\\', '\\']
  else if c = '\n' then ['\\', 'n']
  else if c = '\r' then ['\\', 'r']
  else if c = '\t' then ['\\', 't']
  else if c = '\x00' then ['\\', '0']
  else if isVisible c then [c]
  else ['\\', 'u', '{'] ++ Nat.toDigits 16 c.toNat ++ ['}']

/-- A text as it is shown in a message. -/
def showText (s : String) : String :=
  String.ofList ('"' :: s.toList.flatMap showChar ++ ['"'])

end FormLogic.Text
