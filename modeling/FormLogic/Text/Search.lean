/-!
# FormLogic.Text.Search

Finding one text inside another, and replacing every occurrence that a scan
from the left finds without overlap.
-/

namespace FormLogic.Text

/-- Whether `x` stands somewhere in the text. The empty text stands in every
text. -/
def occursIn (x : List Char) : List Char → Bool
  | [] => x.isEmpty
  | c :: rest => x.isPrefixOf (c :: rest) || occursIn x rest

/-- Write `r` for each occurrence of `x`, after passing over `skip` characters
that belong to the occurrence just replaced. -/
def replaceAfter (x r : List Char) : (skip : Nat) → List Char → List Char
  | _, [] => []
  | skip + 1, _ :: rest => replaceAfter x r skip rest
  | 0, c :: rest =>
    if x.isPrefixOf (c :: rest) then r ++ replaceAfter x r (x.length - 1) rest
    else c :: replaceAfter x r 0 rest

/-- Replace the leftmost occurrence of `x` by `r`, then go on behind it. The
text that replaces is not searched again, and an empty `x` replaces nothing. -/
def replaceAll (x r s : List Char) : List Char :=
  if x.isEmpty then s else replaceAfter x r 0 s

end FormLogic.Text
