import FormLogic.Text.Case.Ranges

/-!
# FormLogic.Text.Case

Full Unicode lower-casing of text. Every character has its own image, with two
exceptions: `İ` becomes the two characters `i̇`, and a capital sigma becomes
`ς` at the end of a word and `σ` elsewhere. A word ends after a sigma when a
cased letter stands before it and none after it, looking past case-ignorable
characters on both sides.
-/

namespace FormLogic.Text

/-- Whether the character is a letter that has a case. -/
def isCased (c : Char) : Bool :=
  inRanges casedRanges c.toNat

/-- Whether the casing context looks past the character. -/
def isCaseIgnorable (c : Char) : Bool :=
  inRanges caseIgnorableRanges c.toNat

/-- The small letters of one character, when its context does not matter. -/
def lowercaseChar (c : Char) : List Char :=
  if c.toNat < 0x80 then [c.toLower]
  else if c = 'İ' then ['i', '\u0307']
  else match lowercaseRuns.findSome? (·.image? c.toNat) with
    | some n => [Char.ofNat n]
    | none => [c]

/-- Whether the first character that is not case-ignorable is cased. -/
def startsCased (s : List Char) : Bool :=
  match s.dropWhile isCaseIgnorable with
  | [] => false
  | c :: _ => isCased c

/-- Lower-case `s` after the characters `before`, which are held in reverse. -/
def lowercaseAfter (before : List Char) : List Char → List Char
  | [] => []
  | c :: rest =>
    (if c = 'Σ' then
      [if startsCased before && !startsCased rest then 'ς' else 'σ']
    else lowercaseChar c) ++ lowercaseAfter (c :: before) rest

/-- Full lower-casing of a text. -/
def lowercase (s : List Char) : List Char :=
  lowercaseAfter [] s

end FormLogic.Text

namespace String

/-- Full Unicode lower-casing. -/
def lowercase (s : String) : String :=
  String.ofList (FormLogic.Text.lowercase s.toList)

end String
