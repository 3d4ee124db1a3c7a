import FormLogic.Decimal.Shortest

/-!
# FormLogic.Decimal.Written

How floating-point numbers are written: positionally when the first digit
stands between the places `10 ^ -5` and `10 ^ 15`, else with an exponent that
always has its sign. A whole number keeps the fraction `.0` in positional
notation.
-/

namespace FormLogic.Decimal

/-- The decimal digits of a natural number. -/
def digitsOf (n : Nat) : List Char :=
  Nat.toDigits 10 n

/-- Digits without the zeros they end with. -/
def stripZeros (ds : List Char) : List Char :=
  (ds.reverse.dropWhile (· == '0')).reverse

/-- Write digits with the point behind the first `place + 1` of them, where
`place` may lie outside the digits. -/
def positional (ds : List Char) (place : Int) : List Char :=
  if place < 0 then
    '0' :: '.' :: List.replicate (-place - 1).toNat '0' ++ ds
  else
    let whole := place.toNat + 1
    let front := ds.take whole ++ List.replicate (whole - ds.length) '0'
    let back := ds.drop whole
    front ++ '.' :: (if back.isEmpty then ['0'] else back)

/-- Write digits with the point behind the first and an exponent. -/
def scientific (ds : List Char) (place : Int) : List Char :=
  let front := match ds with
    | [] => []
    | [d] => [d]
    | d :: more => d :: '.' :: more
  front ++ 'e' :: (if place < 0 then '-' else '+') :: digitsOf place.natAbs

/-- The text of a number that is finite; the others have the texts `inf`,
`-inf` and `NaN`. -/
def Binary64.text (x : Binary64) : List Char :=
  match x with
  | .finite negative m e =>
    let sign := if negative then ['-'] else []
    if m = 0 then sign ++ ['0', '.', '0']
    else
      let d := shortest m e
      let ds := digitsOf d.digits
      let place := d.exponent + ds.length - 1
      let ds := stripZeros ds
      sign ++ (if -5 ≤ place ∧ place ≤ 15 then positional ds place else scientific ds place)
  | .infinite negative => if negative then ['-', 'i', 'n', 'f'] else ['i', 'n', 'f']
  | .nan => ['N', 'a', 'N']

end FormLogic.Decimal
