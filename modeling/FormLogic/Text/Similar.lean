import FormLogic.Text.Case
import FormLogic.Text.Position

/-!
# FormLogic.Text.Similar

The edit distance between two texts, and the search for the known word that an
unknown one was probably meant to be.
-/

namespace FormLogic.Text

/-! ## Edit distance -/

/-- Fill a row of the table of distances behind its place `j`. The row stands for some
characters of a text, the last of them `x`, and the row above for those in front of `x`.
The other text has the characters `rest` behind its first `j` ones. -/
def fillRow (x : Char) (above : Array Nat) :
    (j : Nat) → (rest : List Char) → (row : Array Nat) → Array Nat
  | _, [], row => row
  | j, c :: rest, row =>
    let delete := above.getD (j + 1) 0 + 1
    let insert := row.getD j 0 + 1
    let keep := above.getD j 0 + (if x = c then 0 else 1)
    fillRow x above (j + 1) rest (row.setIfInBounds (j + 1) (min (min delete insert) keep))

/-- The last row of the table to `b`, from the row above that stands for the first `i`
characters of a text on, when the text goes on with `rest`. The two rows take turns: the
one that is not needed any more is filled. -/
def lastRow (b : List Char) :
    (i : Nat) → (rest : List Char) → (above row : Array Nat) → Array Nat
  | _, [], above, _ => above
  | i, x :: rest, above, row =>
    lastRow b (i + 1) rest (fillRow x above 0 b (row.setIfInBounds 0 (i + 1))) above

/-- The number of characters to insert, delete or replace to turn `a` into
`b`. -/
def editDistance (a b : List Char) : Nat :=
  if a.isEmpty then b.length
  else if b.isEmpty then a.length
  else
    let first := Array.range (b.length + 1)
    let unused := Array.replicate (b.length + 1) 0
    (lastRow b 0 a first unused).getD b.length 0

/-! ## Suggestions -/

/-- The distance of two words when letter case does not matter. -/
def wordDistance (a b : String) : Nat :=
  editDistance a.lowercase.toList b.lowercase.toList

/-- Keep the better of the best candidate so far and a new one; the earlier one
wins a tie. -/
def nearer (word : String) (limit : Nat) (best : Option (String × Nat)) (candidate : String) :
    Option (String × Nat) :=
  let d := wordDistance word candidate
  if d ≤ limit ∧ best.all (d < ·.2) then some (candidate, d) else best

/-- The first of the candidates nearest to `word`, if one is within `limit`. -/
def findSimilar (word : String) (candidates : List String) (limit : Nat) : Option String :=
  (candidates.foldl (nearer word limit) none).map (·.1)

/-- How far from a word a suggestion may be: half its bytes, but at least one
and at most three edits. -/
def suggestionLimit (word : String) : Nat :=
  min 3 (max 1 (word.utf8ByteSize / 2))

/-- The help for a word that is not one of the candidates. -/
def suggestionHelp (word : String) (candidates : List String) : String :=
  match findSimilar word candidates (suggestionLimit word) with
  | some candidate => "did you mean '" ++ candidate ++ "'?"
  | none => "expected one of: " ++ ", ".intercalate candidates

end FormLogic.Text
