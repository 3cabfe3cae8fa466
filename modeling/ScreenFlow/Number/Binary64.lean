/-!
# Finite binary64 numbers

A finite binary64 number is a whole multiple of the smallest positive one, `2⁻¹⁰⁷⁴`, so it is
kept exactly: a sign and a count of such units. Rounding a quotient to the nearest representable
count is one division and one comparison of the remainder, and every operation that the number
readers need is that rounding applied to an exact result.

Infinities and what is no number are left out. No JSON text stands for them, and numbers out of
range are refused, so a design or a flow that was read holds none. One that was built with them
would be written with null in their place; statements about designs are about such with finite
numbers.
-/

namespace ScreenFlow

/-- A finite binary64 number with value `± units · 2⁻¹⁰⁷⁴`; the sign of zero is kept. -/
structure Binary64 where
  negative : Bool
  units : Nat
  deriving DecidableEq, Repr

namespace Binary64

/-- The count of units in the number one. -/
def one : Nat := Nat.pow 2 1074

/-- The least count of units that is too large for a finite number. -/
def overflow : Nat := Nat.pow 2 2098

/-- The weight of the last of the 53 significant bits of a count of units. -/
def ulp (units : Nat) : Nat := Nat.pow 2 (units.log2 - 52)

/-- The whole number nearest to `num / den`; a tie goes to the even one. -/
def roundDiv (num den : Nat) : Nat :=
  let quotient := num / den
  let twice := 2 * (num % den)
  if twice < den then quotient
  else if den < twice then quotient + 1
  else quotient + quotient % 2

/-- The representable count of units nearest to `num / den` units, ties to even. -/
def nearest (num den : Nat) : Nat :=
  let step := ulp (num / den)
  roundDiv num (den * step) * step

/-- The units of the number nearest to a whole number. -/
def ofNatUnits (n : Nat) : Nat := nearest (n * one) 1

/-- The units of the product of two magnitudes. -/
def mulUnits (a b : Nat) : Nat := nearest (a * b) one

/-- The units of the quotient of two magnitudes. -/
def divUnits (a b : Nat) : Nat := nearest (a * one) b

/-- The greatest power of ten that is finite. -/
def maxPowerOfTen : Nat := 308

/-- The units of the number nearest to `10 ^ k`. -/
def powerOfTen (k : Nat) : Nat := ofNatUnits (Nat.pow 10 k)

/--
The units of `significand · 10 ^ exponent`, or nothing where that is no finite number. The
significand and the power of ten are rounded first and their product or quotient once more.
A quotient by more than the greatest power takes two steps, and one by more than its square
is zero, since significands have at most 64 bits.
-/
def scaledUnits (significand : Nat) : Int → Option Nat
  | .ofNat k =>
    if significand = 0 then some 0
    else if maxPowerOfTen < k then none
    else
      let units := mulUnits (ofNatUnits significand) (powerOfTen k)
      if units < overflow then some units else none
  | .negSucc k =>
    let down := k + 1
    if down ≤ maxPowerOfTen then
      some (divUnits (ofNatUnits significand) (powerOfTen down))
    else if down ≤ 2 * maxPowerOfTen then
      let first := divUnits (ofNatUnits significand) (powerOfTen maxPowerOfTen)
      some (divUnits first (powerOfTen (down - maxPowerOfTen)))
    else some 0

/-- The number nearest to an integer of at most 64 bits. -/
def ofInt (n : Int) : Binary64 := ⟨decide (n < 0), ofNatUnits n.natAbs⟩

end Binary64

end ScreenFlow
