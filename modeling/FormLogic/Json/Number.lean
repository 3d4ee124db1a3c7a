import FormLogic.Json.Basic

/-!
# FormLogic.Json.Number

The value of a JSON number literal. A literal without fraction and exponent
that fits 64 bits is an integer. Every other literal is a floating-point number:
its digits are gathered into an integer of 64 bits, digits that no longer fit
are dropped, and the integer is scaled by a power of ten, rounding at each of
the two steps. The literal `-0` is the negative zero, and a literal beyond all
floating-point numbers has no value.
-/

namespace FormLogic.Json

open Decimal

/-- A number literal in its parts. -/
structure NumberLiteral where
  negative : Bool
  whole : List Nat
  fraction : Option (List Nat)
  exponent : Option Int
deriving DecidableEq, Repr

/-- Digits gathered so far, with the power of ten they are counted in. -/
structure Gathered where
  digits : Nat
  scale : Int
deriving DecidableEq, Repr

/-- The greatest integer that digits are gathered into. -/
def maxGathered : Nat := 0xFFFFFFFFFFFFFFFF

/-- Gather digits in front of the point. From the first digit that does not fit
on, digits only count as places. -/
def gatherWhole (n : Nat) : List Nat → Gathered
  | [] => ⟨n, 0⟩
  | d :: ds =>
    if maxGathered < n * 10 + d then ⟨n, (d :: ds).length⟩ else gatherWhole (n * 10 + d) ds

/-- Gather digits behind the point. From the first digit that does not fit on,
digits are dropped. -/
def gatherFraction (g : Gathered) : List Nat → Gathered
  | [] => g
  | d :: ds =>
    if maxGathered < g.digits * 10 + d then g
    else gatherFraction ⟨g.digits * 10 + d, g.scale - 1⟩ ds

/-- Divide by `10 ^ 308` until the power of ten that is left has a
floating-point value. Four divisions bring every gathered integer to zero. -/
def scaleDown (x : Binary64) (scale : Int) : (divisions : Nat) → Binary64
  | 0 => .zero false
  | divisions + 1 =>
    if scale < -308 then scaleDown (x.div (.ofNat (Nat.pow 10 308))) (scale + 308) divisions
    else x.div (.ofNat (Nat.pow 10 (-scale).toNat))

/-- The gathered digits times their power of ten. -/
def Gathered.value? (g : Gathered) : Option Binary64 :=
  if g.digits = 0 then some (.zero false)
  else if g.scale < 0 then some (scaleDown (.ofNat g.digits) g.scale 4)
  else if 308 < g.scale then none
  else match (Binary64.ofNat g.digits).mul (.ofNat (Nat.pow 10 g.scale.toNat)) with
    | .infinite _ => none
    | x => some x

/-- The value of a literal. -/
def NumberLiteral.value? (l : NumberLiteral) : Option JsonNumber :=
  let g := gatherWhole 0 l.whole
  let sign (x : Binary64) := if l.negative then x.neg else x
  match l.fraction, l.exponent with
  | none, none =>
    if g.scale ≠ 0 then g.value?.map fun x => .real (sign x)
    else if !l.negative then some (.integer g.digits)
    else if g.digits = 0 ∨ 0x8000000000000000 < g.digits then
      some (.real (Binary64.ofNat g.digits).neg)
    else some (.integer (-g.digits))
  | fraction, exponent =>
    let g := gatherFraction g (fraction.getD [])
    let g : Gathered := ⟨g.digits, g.scale + exponent.getD 0⟩
    g.value?.map fun x => .real (sign x)

end FormLogic.Json
