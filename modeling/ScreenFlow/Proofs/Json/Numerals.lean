import Mathlib.Data.List.TakeWhile
import Mathlib.Tactic.IntervalCases
import ScreenFlow.Json.Token

/-!
# Numerals that read back

The text of an integer of 64 bits reads back as that integer. Whatever reads as a numeral is made of
the characters of numerals and begins with a digit or a minus sign, so it can be told from what
stands next to it.
-/

namespace ScreenFlow

/-- Reading the text of a number gives that number. -/
def Number.ReadsBack (n : Number) : Prop := Json.numeralToken? n.chars = some (.number n)

instance (n : Number) : Decidable n.ReadsBack :=
  inferInstanceAs (Decidable (Json.numeralToken? n.chars = some (.number n)))

namespace Numeral

/-! ## Digits -/

/-- The value of a digit. -/
def digitValue (c : Char) : Nat := c.toNat - '0'.toNat

theorem spanDigits_eq (cs : List Char) :
    spanDigits cs = ((cs.takeWhile Char.isDigit).map digitValue, cs.dropWhile Char.isDigit) := rfl

theorem spanDigits_of_all {cs : List Char} (digits : ∀ c ∈ cs, c.isDigit = true) :
    spanDigits cs = (cs.map digitValue, []) := by
  rw [spanDigits_eq, List.takeWhile_eq_self_iff.mpr digits, List.dropWhile_eq_nil_iff.mpr digits]

theorem digitValue_ne_zero {c : Char} (digit : c.isDigit = true) (other : c ≠ '0') :
    digitValue c ≠ 0 := by
  intro zero
  have low : '0'.toNat ≤ c.toNat := by
    rw [Char.isDigit, Bool.and_eq_true, decide_eq_true_eq, decide_eq_true_eq] at digit
    exact digit.1
  have same : c.toNat = '0'.toNat := Nat.le_antisymm (Nat.sub_eq_zero_iff_le.mp zero) low
  exact other (Char.toNat_inj.mp same)

theorem ofDigits_toDigits (n : Nat) : ofDigits ((Nat.toDigits 10 n).map digitValue) = n := by
  have chars := Nat.ofDigitChars_ten_toDigits (n := n)
  rw [Nat.ofDigitChars_eq_foldl] at chars
  rw [ofDigits, List.foldl_map]
  exact chars

theorem head?_toDigits_ne {n : Nat} (positive : 0 < n) : (Nat.toDigits 10 n).head? ≠ some '0' := by
  -- A number of several digits has the first digit of its tenth part.
  induction n using Nat.strongRecOn with
  | ind n ih =>
      by_cases small : n < 10
      · rw [Nat.toDigits_of_lt_base small]
        interval_cases n <;> decide
      · have base : 10 ≤ n := Nat.le_of_not_lt small
        rw [Nat.toDigits_of_base_le (by decide) base, List.head?_append,
          Option.or_of_isSome (List.isSome_head?.mpr Nat.toDigits_ne_nil)]
        exact ih (n / 10) (Nat.div_lt_self positive (by decide)) (Nat.div_pos base (by decide))

/-- The digits of a number have no needless leading zero. -/
theorem isWhole_toDigits (n : Nat) : isWhole ((Nat.toDigits 10 n).map digitValue) = true := by
  rcases Nat.eq_zero_or_pos n with rfl | positive
  · decide
  · have first := head?_toDigits_ne positive
    have digits : ∀ c ∈ Nat.toDigits 10 n, c.isDigit = true := fun c member =>
      Nat.isDigit_of_mem_toDigits (by decide) (by decide) member
    cases h : Nat.toDigits 10 n with
    | nil => exact absurd h Nat.toDigits_ne_nil
    | cons c cs =>
        rw [h] at first digits
        have nonzero : digitValue c ≠ 0 :=
          digitValue_ne_zero (digits c List.mem_cons_self) fun zero => first (congrArg some zero)
        cases v : digitValue c with
        | zero => exact absurd v nonzero
        | succ d => rw [List.map_cons, v]; rfl

/-! ## Integers -/

/-- Digits with an optional minus sign are a numeral without point and exponent. -/
theorem ofChars?_integerChars (n : Int) :
    ofChars? (Number.integerChars n) =
      some ⟨decide (n < 0), (Nat.toDigits 10 n.natAbs).map digitValue, none, none⟩ := by
  have digits (k : Nat) : ∀ c ∈ Nat.toDigits 10 k, c.isDigit = true := fun c member =>
    Nat.isDigit_of_mem_toDigits (by decide) (by decide) member
  have split (k : Nat) := spanDigits_of_all (digits k)
  -- Reading looks for a sign first: a natural number must be seen not to begin with one.
  cases n with
  | ofNat k =>
      have natural : decide (Int.ofNat k < 0) = false := decide_eq_false (Int.not_lt.mpr (by simp))
      rw [Number.integerChars, natural]
      cases shape : Nat.toDigits 10 k with
      | nil => exact absurd shape Nat.toDigits_ne_nil
      | cons c cs =>
          have unsigned : c ≠ '-' := by
            rintro rfl
            have digit := digits k '-' (shape ▸ List.mem_cons_self)
            exact absurd digit (by decide)
          have span := split k
          have whole := isWhole_toDigits k
          rw [shape, List.map_cons] at span whole
          simp [ofChars?, unsigned, span, whole, shape, takeFraction, exponent?]
  | negSucc k =>
      have negative : decide (Int.negSucc k < 0) = true := decide_eq_true (Int.negSucc_lt_zero k)
      rw [Number.integerChars, negative]
      simp [ofChars?, split, isWhole_toDigits, takeFraction, exponent?]

end Numeral

/-- Integers of 64 bits read back. -/
theorem Number.readsBack_integer {n : Int} (low : minInteger ≤ n) (high : n ≤ maxInteger) :
    (Number.integer n).ReadsBack := by
  have size := Numeral.ofDigits_toDigits n.natAbs
  have integer : Numeral.integer?
      ⟨decide (n < 0), (Nat.toDigits 10 n.natAbs).map Numeral.digitValue, none, none⟩ = some n := by
    unfold Numeral.integer?
    simp only [size, Option.isSome_none, Bool.or_self, Bool.false_eq_true, if_false]
    -- The bounds differ for the two signs, and the digits give the absolute value only.
    by_cases negative : n < 0
    · have abs : -(n.natAbs : Int) = n := by omega
      rw [if_pos (by exact decide_eq_true negative), abs, if_pos ⟨by omega, low⟩]
    · have abs : (n.natAbs : Int) = n := by omega
      rw [if_neg (by exact fun h => negative (of_decide_eq_true h)), abs, if_pos high]
  rw [ReadsBack, Number.chars, Json.numeralToken?, Numeral.ofChars?_integerChars, Option.map_some,
    Numeral.number?, integer]

/-! ## The characters of a numeral -/

namespace Numeral

open ScreenFlow.Json (isNumeralChar)

theorem isNumeralChar_of_isDigit {c : Char} (digit : c.isDigit = true) :
    isNumeralChar c = true := by
  simp [isNumeralChar, digit]

/-- A text consists of characters of numerals if it does so behind its leading digits. -/
theorem all_of_dropWhile {cs : List Char}
    (rest : ∀ c ∈ cs.dropWhile Char.isDigit, isNumeralChar c = true) :
    ∀ c ∈ cs, isNumeralChar c = true := by
  intro c member
  rw [← List.takeWhile_append_dropWhile (p := Char.isDigit) (l := cs), List.mem_append] at member
  rcases member with leading | behind
  · exact isNumeralChar_of_isDigit (List.mem_takeWhile_imp leading)
  · exact rest c behind

theorem all_of_exponent? {cs : List Char} {exponent : Option Int}
    (read : exponent? cs = some exponent) : ∀ c ∈ cs, isNumeralChar c = true := by
  cases cs with
  | nil => simp
  | cons c cs =>
      rw [exponent?] at read
      by_cases letter : c = 'e' ∨ c = 'E'
      · rw [if_pos letter] at read
        have signed : ∀ d ∈ (takeSign cs).2, isNumeralChar d = true := by
          apply all_of_dropWhile
          intro d member
          simp only [spanDigits_eq] at read
          cases behind : (takeSign cs).2.dropWhile Char.isDigit with
          | nil => rw [behind] at member; cases member
          | cons x xs =>
              rw [behind] at read
              -- Nothing may follow the digits of an exponent, and there must be some.
              generalize ((takeSign cs).2.takeWhile Char.isDigit).map digitValue = digits at read
              cases digits <;> cases read
        have unsigned : ∀ d ∈ cs, isNumeralChar d = true := by
          intro d member
          unfold takeSign at signed
          split at signed
          · exact (List.mem_cons.mp member).elim (fun sign => sign ▸ rfl) (signed d)
          · exact (List.mem_cons.mp member).elim (fun sign => sign ▸ rfl) (signed d)
          · exact signed d member
        refine List.forall_mem_cons.mpr ⟨?_, unsigned⟩
        rcases letter with rfl | rfl <;> rfl
      · rw [if_neg letter] at read
        cases read

theorem all_of_takeFraction {cs rest : List Char} {fraction : Option (List Nat)}
    (read : takeFraction cs = some (fraction, rest))
    (behind : ∀ c ∈ rest, isNumeralChar c = true) : ∀ c ∈ cs, isNumeralChar c = true := by
  unfold takeFraction at read
  split at read
  · rename_i cs
    simp only [spanDigits_eq] at read
    refine List.forall_mem_cons.mpr ⟨rfl, all_of_dropWhile fun c member => behind c ?_⟩
    generalize (cs.takeWhile Char.isDigit).map digitValue = digits at read
    cases digits with
    | nil => cases read
    | cons d ds =>
        cases read
        exact member
  · cases read
    exact behind

/-- A numeral without its sign begins with a digit. -/
theorem chars_of_whole {cs rest : List Char} {fraction : Option (List Nat)} {exponent : Option Int}
    (whole : isWhole (spanDigits cs).1 = true)
    (fractionRead : takeFraction (spanDigits cs).2 = some (fraction, rest))
    (exponentRead : exponent? rest = some exponent) :
    (∃ c cs', cs = c :: cs' ∧ c.isDigit = true) ∧ ∀ c ∈ cs, isNumeralChar c = true := by
  constructor
  · cases cs with
    | nil => cases whole
    | cons c cs =>
        refine ⟨c, cs, rfl, ?_⟩
        by_contra other
        rw [spanDigits_eq, List.takeWhile_cons_of_neg other] at whole
        cases whole
  · exact all_of_dropWhile (all_of_takeFraction fractionRead (all_of_exponent? exponentRead))

/-- A numeral begins with a digit or a minus sign and consists of the characters of numerals. -/
theorem chars_of_ofChars? {cs : List Char} {n : Numeral} (read : ofChars? cs = some n) :
    (∃ c rest, cs = c :: rest ∧ (c.isDigit || c == '-') = true) ∧
      ∀ c ∈ cs, isNumeralChar c = true := by
  unfold ofChars? at read
  split at read
  rename_i negative ds sign
  -- The sign is split off first; without it a numeral begins with a digit.
  have unsigned : (∃ c rest, ds = c :: rest ∧ c.isDigit = true) ∧
      ∀ c ∈ ds, isNumeralChar c = true := by
    by_cases whole : isWhole (spanDigits ds).1 = true
    · simp only [whole, if_true] at read
      cases fractionRead : takeFraction (spanDigits ds).2 with
      | none => rw [fractionRead] at read; cases read
      | some found =>
          rw [fractionRead] at read
          obtain ⟨exponent, exponentRead, -⟩ := Option.map_eq_some_iff.mp read
          exact chars_of_whole whole fractionRead exponentRead
    · simp only [whole] at read
      cases read
  obtain ⟨⟨c, rest, shape, digit⟩, all⟩ := unsigned
  split at sign
  · cases sign
    exact ⟨⟨'-', _, rfl, rfl⟩, List.forall_mem_cons.mpr ⟨rfl, all⟩⟩
  · cases sign
    exact ⟨⟨c, rest, shape, by rw [digit, Bool.true_or]⟩, all⟩

end Numeral

/-- The text of a number that reads back can be told from what stands next to it. -/
theorem Number.ReadsBack.chars {n : Number} (reads : n.ReadsBack) :
    (∃ c rest, n.chars = c :: rest ∧ (c.isDigit || c == '-') = true) ∧
      ∀ c ∈ n.chars, Json.isNumeralChar c = true := by
  rw [ReadsBack, Json.numeralToken?, Option.map_eq_some_iff] at reads
  obtain ⟨numeral, read, -⟩ := reads
  exact Numeral.chars_of_ofChars? read

end ScreenFlow
