import FormLogic.Decimal.Binary64

/-!
# FormLogic.Decimal.Shortest

The fewest decimal digits that read back as a given number, and among those
the nearest to it. A number `m · 2 ^ e` stands for all reals closer to it than
to its neighbours, and for the midpoints when `m` is even; the digits are the
first grid of decimals that has a point in this interval.
-/

namespace FormLogic.Decimal

/-- The greatest `k` with `10 ^ k ≤ num / den`. -/
def decimalExponent (num den : Nat) : Int :=
  let guess : Int := (digitCount num : Int) - (digitCount den : Int)
  let below := if 0 ≤ guess then num < den * Nat.pow 10 guess.toNat
    else num * Nat.pow 10 (-guess).toNat < den
  if below then guess - 1 else guess

/-- A decimal: `digits · 10 ^ exponent`. -/
structure Scientific where
  digits : Nat
  exponent : Int
deriving DecidableEq, Repr

/-- The interval that a mantissa stands for, in quarters of its last bit: the
two ends, and whether they belong to it. The lower neighbour of a power of two
is nearer than the upper one, but for the least exponent. -/
structure Interval where
  low : Nat
  high : Nat
  closed : Bool
deriving DecidableEq, Repr

/-- The interval of the number `mantissa · 2 ^ exponent`. -/
def intervalOf (mantissa : Nat) (exponent : Int) : Interval where
  low := 4 * mantissa -
    (if mantissa = Binary64.hiddenBit ∧ exponent ≠ Binary64.minExponent then 1 else 2)
  high := 4 * mantissa + 2
  closed := mantissa % 2 == 0

/-- Whether `x / y` lies in the interval. -/
def Interval.holds (i : Interval) (x y : Nat) : Bool :=
  if i.closed then i.low * y ≤ x && x ≤ i.high * y else i.low * y < x && x < i.high * y

/-- The point of the grid `10 ^ k` that lies in the interval and is nearest to
the number, a tie going to the even point. -/
def gridPoint? (mantissa : Nat) (exponent k : Int) : Option Nat :=
  -- `d · 10 ^ k` is `d * p / q` quarters of the last bit.
  let quarter := exponent - 2
  let p := Nat.pow 10 k.toNat <<< (-quarter).toNat
  let q := Nat.pow 10 (-k).toNat <<< quarter.toNat
  let value := 4 * mantissa * q
  let low := value / p
  let interval := intervalOf mantissa exponent
  let nearest := roundDiv value p
  if interval.holds (nearest * p) q then some nearest
  else if interval.holds (low * p) q then some low
  else if interval.holds ((low + 1) * p) q then some (low + 1)
  else none

/-- The decimal of the first grid that has a point in the interval, from the
grid `10 ^ k` downwards. -/
def shortestFrom (mantissa : Nat) (exponent : Int) : (grids : Nat) → (k : Int) → Scientific
  | 0, k => ⟨(gridPoint? mantissa exponent k).getD 0, k⟩
  | grids + 1, k =>
    match gridPoint? mantissa exponent k with
    | some d => ⟨d, k⟩
    | none => shortestFrom mantissa exponent grids (k - 1)

/-- The shortest decimal of the number `mantissa · 2 ^ exponent`, which is not
zero. Seventeen digits are always enough. -/
def shortest (mantissa : Nat) (exponent : Int) : Scientific :=
  let top := if 0 ≤ exponent then decimalExponent (mantissa <<< exponent.toNat) 1
    else decimalExponent mantissa (1 <<< (-exponent).toNat)
  shortestFrom mantissa exponent 16 top

end FormLogic.Decimal
