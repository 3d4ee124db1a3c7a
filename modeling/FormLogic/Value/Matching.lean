import FormLogic.Text.Case
import FormLogic.Text.Search
import FormLogic.Value.Basic

/-!
# FormLogic.Value.Matching

How answers are compared. An answer matches when one of the texts it is
compared as does; letter case is ignored by comparing lower-cased texts.
-/

namespace FormLogic.Value

open Text

/-- Whether a text holds another one. -/
def textContains (s needle : String) : Bool :=
  occursIn needle.toList s.toList

/-- Whether some text of the answer holds `needle`. -/
def containsText (v : Value) (needle : String) : Bool :=
  v.comparableTexts.any (textContains · needle)

/-- Whether some text of the answer holds `needle` in any letter case. -/
def containsIgnoringCase (v : Value) (needle : String) : Bool :=
  v.comparableTexts.any (textContains ·.lowercase needle.lowercase)

/-- Whether some text of the answer is `expected` in any letter case. -/
def equalsIgnoringCase (v : Value) (expected : String) : Bool :=
  v.comparableTexts.any (·.lowercase == expected.lowercase)

/-- Whether two answers have a text in common, in any letter case. -/
def looselyEqual (v w : Value) : Bool :=
  v.comparableTexts.any fun s => (w.comparableTexts.map (·.lowercase)).contains s.lowercase

end FormLogic.Value
