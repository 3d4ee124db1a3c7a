/-!
# FormLogic.Decimal.Binary64

Floating-point numbers with 53 bits of precision, held exactly: a finite number
is a sign, a mantissa and a power of two. Arithmetic is exact arithmetic on
natural numbers followed by one rounding to the nearest number, with ties to
the even mantissa.
-/

namespace FormLogic.Decimal

/-- Division rounded to the nearest natural number, ties to even. -/
def roundDiv (num den : Nat) : Nat :=
  let q := num / den
  let r := num % den
  if 2 * r < den then q
  else if den < 2 * r then q + 1
  else if q % 2 = 0 then q else q + 1

/-- The number of decimal digits of a natural number. -/
def digitCount (n : Nat) : Nat :=
  (Nat.toDigits 10 n).length

/-- A number of 64 bits: `finite n m e` stands for `± m · 2 ^ e`. -/
inductive Binary64 where
  | finite (negative : Bool) (mantissa : Nat) (exponent : Int)
  | infinite (negative : Bool)
  | nan
deriving DecidableEq, Repr

namespace Binary64

/-- The least exponent of a finite number. -/
def minExponent : Int := -1074

/-- The greatest exponent of a finite number. -/
def maxExponent : Int := 971

/-- The least mantissa of a number that has its full precision: `2 ^ 52`. -/
def hiddenBit : Nat := 0x10000000000000

/-- The two zeros. -/
def zero (negative : Bool) : Binary64 := .finite negative 0 minExponent

/-- The exponent at which the mantissa of `num / den` has 53 bits, but no less
than the least exponent. -/
def exponentFor (num den : Nat) : Int :=
  let guess : Int := (num.log2 : Int) - (den.log2 : Int) - 52
  -- The quotient of two numbers of `a` and `b` bits has `a - b` or `a - b + 1` bits.
  let scaled := if 0 ≤ guess then num < den <<< (52 + guess.toNat)
    else num <<< (-guess).toNat < den <<< 52
  max minExponent (if scaled then guess - 1 else guess)

/-- The number nearest to `± num / den`, where `den` is not zero. -/
def ofRatio (negative : Bool) (num den : Nat) : Binary64 :=
  if num = 0 then zero negative
  else
    let e := exponentFor num den
    let m := if 0 ≤ e then roundDiv num (den <<< e.toNat)
      else roundDiv (num <<< (-e).toNat) den
    let (m, e) := if m = 2 * hiddenBit then (hiddenBit, e + 1) else (m, e)
    if maxExponent < e then .infinite negative else .finite negative m e

/-- The number nearest to a natural number. -/
def ofNat (n : Nat) : Binary64 := ofRatio false n 1

/-- The number nearest to an integer. -/
def ofInt (i : Int) : Binary64 := ofRatio (i < 0) i.natAbs 1

/-- The number nearest to `± digits · 10 ^ exponent`. Every decimal of more than
310 places in front of the point is infinite, and every one whose first digit
stands behind the place 400 is zero. -/
def ofDecimal (negative : Bool) (digits : Nat) (exponent : Int) : Binary64 :=
  let places := (digitCount digits : Int) + exponent
  if digits = 0 ∨ places < -400 then zero negative
  else if 310 < places then .infinite negative
  else if 0 ≤ exponent then ofRatio negative (digits * Nat.pow 10 exponent.toNat) 1
  else ofRatio negative digits (Nat.pow 10 (-exponent).toNat)

/-- The number with the other sign. -/
def neg : Binary64 → Binary64
  | .finite n m e => .finite (!n) m e
  | .infinite n => .infinite (!n)
  | .nan => .nan

/-- The product of two finite numbers, rounded. -/
def mul : Binary64 → Binary64 → Binary64
  | .finite n m e, .finite n' m' e' =>
    if 0 ≤ e + e' then ofRatio (n != n') ((m * m') <<< (e + e').toNat) 1
    else ofRatio (n != n') (m * m') (1 <<< (-(e + e')).toNat)
  | _, _ => .nan

/-- The quotient of two finite numbers, rounded, where the divisor is not
zero. -/
def div : Binary64 → Binary64 → Binary64
  | .finite n m e, .finite n' m' e' =>
    if 0 ≤ e - e' then ofRatio (n != n') (m <<< (e - e').toNat) m'
    else ofRatio (n != n') m (m' <<< (e' - e).toNat)
  | _, _ => .nan

end Binary64

end FormLogic.Decimal
