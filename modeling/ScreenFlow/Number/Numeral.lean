import ScreenFlow.Number.Shortest

/-!
# Numbers and their numerals

A number is an integer of 64 bits or a binary64 number. A numeral is the text of one, split by the
JSON grammar into a sign, the digits before and after the point, and an exponent. A numeral
without point and exponent whose value fits is an integer; any other one is a binary64 number.
-/

namespace ScreenFlow

/-- A number as JSON data holds it. -/
inductive Number where
  | integer (n : Int)
  | float (x : Binary64)
  deriving DecidableEq, Repr

namespace Number

/-- The least integer: minus `2 ^ 63`. -/
def minInteger : Int := -9223372036854775808

/-- The greatest integer: `2 ^ 64 - 1`. -/
def maxInteger : Nat := UInt64.size - 1

/-- The decimal text of an integer. -/
def integerChars : Int → List Char
  | .ofNat n => Nat.toDigits 10 n
  | .negSucc n => '-' :: Nat.toDigits 10 (n + 1)

def chars : Number → List Char
  | .integer n => integerChars n
  | .float x => x.chars

end Number

/-- The parts of the text of a number. -/
structure Numeral where
  negative : Bool
  /-- The digits before the point. -/
  whole : List Nat
  /-- The digits after the point, when there is one. -/
  fraction : Option (List Nat)
  /-- The exponent, when there is one. -/
  exponent : Option Int
  deriving DecidableEq, Repr

namespace Numeral

/-- The leading decimal digits of a text and what follows them. -/
def spanDigits (cs : List Char) : List Nat × List Char :=
  ((cs.takeWhile Char.isDigit).map fun c => c.toNat - '0'.toNat, cs.dropWhile Char.isDigit)

/-- The number that digits stand for. -/
def ofDigits (digits : List Nat) : Nat := digits.foldl (fun n d => 10 * n + d) 0

/-- One digit or more, without a needless leading zero. -/
def isWhole : List Nat → Bool
  | [] => false
  | 0 :: _ :: _ => false
  | _ => true

/-- The fraction at the start of a text: a point and one digit or more. -/
def takeFraction : List Char → Option (Option (List Nat) × List Char)
  | '.' :: cs =>
    match spanDigits cs with
    | ([], _) => none
    | (digits, rest) => some (some digits, rest)
  | cs => some (none, cs)

/-- The sign of an exponent and what follows it. -/
def takeSign : List Char → Bool × List Char
  | '+' :: cs => (false, cs)
  | '-' :: cs => (true, cs)
  | cs => (false, cs)

/-- The exponent that is the whole of a text: a letter, a sign and one digit or more. -/
def exponent? : List Char → Option (Option Int)
  | [] => some none
  | c :: cs =>
    if c = 'e' ∨ c = 'E' then
      let (negative, cs) := takeSign cs
      match spanDigits cs with
      | ([], _) => none
      | (digits, []) =>
        let size : Int := ofDigits digits
        some (some (if negative then -size else size))
      | (_, _ :: _) => none
    else none

/-- The parts of a text that is a numeral. -/
def ofChars? (cs : List Char) : Option Numeral :=
  let (negative, cs) := match cs with
    | '-' :: rest => (true, rest)
    | rest => (false, rest)
  let (whole, cs) := spanDigits cs
  if isWhole whole then
    match takeFraction cs with
    | none => none
    | some (fraction, cs) =>
      (exponent? cs).map fun exponent => ⟨negative, whole, fraction, exponent⟩
  else none

/--
Digits are taken into a significand of 64 bits up to the first one that does not fit; the result
is the significand and the digits left over.
-/
def absorb (significand : Nat) : List Nat → Nat × List Nat
  | [] => (significand, [])
  | d :: ds =>
    if 10 * significand + d ≤ Number.maxInteger then absorb (10 * significand + d) ds
    else (significand, d :: ds)

/--
The number nearest to a numeral's significant digits times its power of ten, or nothing where it
is out of range. Digits before the point that no longer fit the significand raise the exponent;
digits after the point that no longer fit are dropped.
-/
def float? (n : Numeral) : Option Binary64 :=
  let (significand, wholeLeft) := absorb 0 n.whole
  let fraction := n.fraction.getD []
  let (significand, fractionLeft) := absorb significand fraction
  let taken := fraction.length - fractionLeft.length
  let exponent := n.exponent.getD 0 + wholeLeft.length - taken
  (Binary64.scaledUnits significand exponent).map (Binary64.mk n.negative)

/-- The integer a numeral stands for, if it has no point, no exponent and fits; `-0` does not. -/
def integer? (n : Numeral) : Option Int :=
  let size : Int := ofDigits n.whole
  if n.fraction.isSome || n.exponent.isSome then none
  else if n.negative then
    if size ≠ 0 ∧ Number.minInteger ≤ -size then some (-size) else none
  else if size ≤ Number.maxInteger then some size
  else none

/-- The number a numeral stands for, or nothing where it is out of range. -/
def number? (n : Numeral) : Option Number :=
  match n.integer? with
  | some i => some (.integer i)
  | none => n.float?.map .float

end Numeral

end ScreenFlow
