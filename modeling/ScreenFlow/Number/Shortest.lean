import ScreenFlow.Number.Binary64

/-!
# The shortest decimal text of a binary64 number

A decimal reads back as a given number when it lies in the interval of reals that round to that
number. On the grid of decimals with `k` digits only the two neighbours of the number can be the
nearest in that interval, so the first `k` with a neighbour inside gives the fewest digits. All
comparisons are between natural numbers over one common denominator.
-/

namespace ScreenFlow

namespace Binary64

/-- Every count of units is at least one over this power of ten. -/
def decimalPlaces : Nat := 340

/-- The exponent of the leading decimal digit of a positive count of units. -/
def leadingExponent (units : Nat) : Int :=
  ((Nat.toDigits 10 (units * Nat.pow 10 decimalPlaces / one)).length : Int) - 1 - decimalPlaces

/-- A decimal `digits · 10 ^ exponent`. -/
structure Decimal where
  digits : Nat
  exponent : Int
  deriving DecidableEq, Repr

/--
The decimal with at most `count` digits that rounds to the given units and is nearest to them,
if there is one; of two equally near ones the even one.
-/
def decimalWithDigits (units count : Nat) : Option Decimal :=
  let exponent := leadingExponent units - ((count : Int) - 1)
  let value := 4 * units * Nat.pow 10 decimalPlaces
  let grid := 4 * one * Nat.pow 10 (exponent + decimalPlaces).toNat
  let half := 2 * ulp units * Nat.pow 10 decimalPlaces
  let halfBelow := if units = Nat.pow 2 units.log2 ∧ 1 < ulp units then half / 2 else half
  let even := units / ulp units % 2 = 0
  let low := value / grid
  let below := value - low * grid
  let above := (low + 1) * grid - value
  let lowFits := below < halfBelow ∨ (even ∧ below = halfBelow)
  let highFits := above < half ∨ (even ∧ above = half)
  if lowFits ∧ highFits then
    if below < above then some ⟨low, exponent⟩
    else if above < below then some ⟨low + 1, exponent⟩
    else some ⟨low + low % 2, exponent⟩
  else if lowFits then some ⟨low, exponent⟩
  else if highFits then some ⟨low + 1, exponent⟩
  else none

/-- The decimal of fewest digits that rounds to the given units; 17 digits always suffice. -/
def shortest (units : Nat) : Decimal :=
  if units = 0 then ⟨0, 0⟩
  else ((List.range 17).findSome? fun k => decimalWithDigits units (k + 1)).getD ⟨0, 0⟩

/-- A decimal without zeros at the end of its digits. -/
def Decimal.trimmed (d : Decimal) : List Char × Int :=
  let digits := Nat.toDigits 10 d.digits
  let kept := (digits.reverse.dropWhile (· == '0')).reverse
  (kept, d.exponent + ((digits.length : Int) - kept.length))

/-- The least leading exponent that is written without an exponent. -/
def leastPositional : Int := -5

/-- The greatest leading exponent that is written without an exponent. -/
def greatestPositional : Int := 15

/-- Digits with a decimal point, at least one digit on each side of it. -/
def positional (digits : List Char) (exponent : Int) : List Char :=
  if 0 ≤ exponent then digits ++ List.replicate exponent.toNat '0' ++ ['.', '0']
  else
    let places := (-exponent).toNat
    if places < digits.length then
      digits.take (digits.length - places) ++ '.' :: digits.drop (digits.length - places)
    else '0' :: '.' :: List.replicate (places - digits.length) '0' ++ digits

/-- One digit, the rest after a point, and the exponent with its sign. -/
def scientific (digits : List Char) (leading : Int) : List Char :=
  let mantissa := match digits with
    | [] => []
    | [d] => [d]
    | d :: rest => d :: '.' :: rest
  let sign := if leading < 0 then '-' else '+'
  mantissa ++ 'e' :: (if leading < 0 then ['-'] else [sign]) ++ Nat.toDigits 10 leading.natAbs

/--
The text of a number: the fewest digits that read back, with a point when the leading exponent
is between −5 and 15 and in scientific form otherwise.
-/
def chars (x : Binary64) : List Char :=
  let sign := if x.negative then ['-'] else []
  if x.units = 0 then sign ++ ['0', '.', '0']
  else
    let (digits, exponent) := (shortest x.units).trimmed
    let leading := exponent + digits.length - 1
    sign ++
      if leastPositional ≤ leading ∧ leading ≤ greatestPositional then positional digits exponent
      else scientific digits leading

end Binary64

end ScreenFlow
