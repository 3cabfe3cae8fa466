import Mathlib.Data.List.Induction
import ScreenFlow.Proofs.Json.Embedding

/-!
# Literals of natural numbers

Which texts stand for a natural number can be said without the scanner: its decimal digits, with
nothing but blanks around them. A sign, a point or an exponent makes the text another number, even
where the value is the same, and so does a size of more than 64 bits.
-/

namespace ScreenFlow

namespace Numeral

/-! ## Digits -/

theorem digitChar_digitValue {c : Char} (digit : c.isDigit = true) :
    Nat.digitChar (digitValue c) = c := by
  rw [Char.isDigit, Bool.and_eq_true, decide_eq_true_eq, decide_eq_true_eq] at digit
  have low : 48 ≤ c.toNat := digit.1
  have high : c.toNat ≤ 57 := digit.2
  rw [← Char.ofNat_toNat c, digitValue]
  generalize c.toNat = n at low high
  interval_cases n <;> rfl

theorem digitValue_lt {c : Char} (digit : c.isDigit = true) : digitValue c < 10 := by
  rw [Char.isDigit, Bool.and_eq_true, decide_eq_true_eq, decide_eq_true_eq] at digit
  have high : c.toNat ≤ 57 := digit.2
  have zero : '0'.toNat = 48 := rfl
  rw [digitValue, zero]
  omega

theorem ofDigits_concat (digits : List Nat) (d : Nat) :
    ofDigits (digits ++ [d]) = 10 * ofDigits digits + d := by
  rw [ofDigits, List.foldl_append]
  rfl

/-- Digits without a needless zero are those of the number that they stand for. -/
theorem toDigits_ofDigits {cs : List Char} (digits : ∀ c ∈ cs, c.isDigit = true)
    (whole : isWhole (cs.map digitValue) = true) :
    Nat.toDigits 10 (ofDigits (cs.map digitValue)) = cs := by
  -- The last digit is the remainder by ten; what is before it are digits of the same kind.
  induction cs using List.reverseRecOn with
  | nil => cases whole
  | append_singleton ds d ih =>
      have isDigit : d.isDigit = true := digits d (List.mem_append_right ds List.mem_cons_self)
      have small := digitValue_lt isDigit
      rw [List.map_append, List.map_singleton] at whole ⊢
      rw [ofDigits_concat]
      cases ds with
      | nil =>
          have single : 10 * ofDigits ([].map digitValue) + digitValue d = digitValue d := by
            simp [ofDigits]
          rw [single, Nat.toDigits_of_lt_base small, digitChar_digitValue isDigit]
          rfl
      | cons e es =>
          have nonzero : digitValue e ≠ 0 := by
            intro zero
            rw [List.map_cons, zero] at whole
            cases shape : es.map digitValue with
            | nil => rw [shape] at whole; cases whole
            | cons => rw [shape] at whole; cases whole
          have wholeBefore : isWhole ((e :: es).map digitValue) = true := by
            rw [List.map_cons]
            cases value : digitValue e with
            | zero => exact absurd value nonzero
            | succ => rfl
          have before := ih (fun c member => digits c (List.mem_append_left [d] member)) wholeBefore
          generalize ofDigits ((e :: es).map digitValue) = n at before ⊢
          have positive : 0 < n := by
            refine Nat.pos_of_ne_zero ?_
            rintro rfl
            rw [Nat.toDigits_zero] at before
            cases before
            exact nonzero rfl
          rw [← Nat.toDigits_append_toDigits (by decide) positive small, before,
            Nat.toDigits_of_lt_base small, digitChar_digitValue isDigit]

/-! ## Numerals of natural numbers -/

theorem exponent?_eq_none {cs : List Char} (absent : exponent? cs = some none) : cs = [] := by
  cases cs with
  | nil => rfl
  | cons c cs =>
      rw [exponent?] at absent
      split at absent
      · dsimp only at absent
        split at absent <;> cases absent
      · cases absent

theorem takeFraction_eq_none {cs rest : List Char} (absent : takeFraction cs = some (none, rest)) :
    rest = cs := by
  unfold takeFraction at absent
  split at absent
  · split at absent <;> cases absent
  · cases absent
    rfl

/-- A numeral without sign, point and exponent is made of its digits alone. -/
theorem digits_of_ofChars? {cs : List Char} {whole : List Nat}
    (read : ofChars? cs = some ⟨false, whole, none, none⟩) :
    (∀ c ∈ cs, c.isDigit = true) ∧ whole = cs.map digitValue ∧ isWhole whole = true := by
  unfold ofChars? at read
  split at read
  rename_i negative ds sign
  by_cases isNumeral : isWhole (spanDigits ds).1 = true
  · simp only [isNumeral, if_true] at read
    cases fractionRead : takeFraction (spanDigits ds).2 with
    | none => rw [fractionRead] at read; cases read
    | some found =>
        obtain ⟨fraction, rest⟩ := found
        rw [fractionRead] at read
        obtain ⟨exponent, exponentRead, same⟩ := Option.map_eq_some_iff.mp read
        cases same
        have noFraction := takeFraction_eq_none fractionRead
        rw [exponent?_eq_none exponentRead] at noFraction
        have all : ∀ c ∈ ds, c.isDigit = true := List.dropWhile_eq_nil_iff.mp noFraction.symm
        rw [spanDigits_of_all all] at isNumeral ⊢
        split at sign
        · cases sign
        · cases sign
          exact ⟨all, rfl, isNumeral⟩
  · simp only [isNumeral] at read
    cases read

/-- Only digits without a sign, a point and an exponent give a natural number. -/
theorem of_integer?_eq_natural {numeral : Numeral} {n : Nat}
    (read : numeral.integer? = some (n : Int)) :
    numeral = ⟨false, numeral.whole, none, none⟩ ∧ ofDigits numeral.whole = n ∧
      n ≤ Number.maxInteger := by
  obtain ⟨negative, whole, fraction, exponent⟩ := numeral
  unfold integer? at read
  simp only at read
  split at read
  · cases read
  · rename_i plain
    rw [Bool.or_eq_true, not_or, Option.not_isSome_iff_eq_none, Option.not_isSome_iff_eq_none]
      at plain
    obtain ⟨rfl, rfl⟩ := plain
    split at read
    · -- A minus sign goes with other integers only, since `-0` is none.
      split at read
      · rename_i nonzero
        rw [Option.some.injEq] at read
        have := Int.natCast_nonneg (ofDigits whole)
        omega
      · cases read
    · rename_i unsigned
      split at read
      · rename_i fits
        rw [Option.some.injEq, Int.natCast_inj] at read
        subst read
        rw [Bool.not_eq_true] at unsigned
        exact ⟨by rw [unsigned], rfl, Int.ofNat_le.mp fits⟩
      · cases read

end Numeral

namespace Json

/-- A numeral stands for a natural number exactly if it consists of the digits of that number. -/
theorem numeralToken?_eq_natural_iff {cs : List Char} {n : Nat} :
    numeralToken? cs = some (.number (.integer n)) ↔
      cs = Nat.toDigits 10 n ∧ n ≤ Number.maxInteger := by
  constructor
  · intro read
    obtain ⟨numeral, parts, token⟩ := Option.map_eq_some_iff.mp read
    have integer : numeral.integer? = some (n : Int) := by
      cases integer : numeral.integer? with
      | some i =>
          rw [Numeral.number?, integer] at token
          cases token
          rfl
      | none =>
          rw [Numeral.number?, integer] at token
          cases float : numeral.float? <;> rw [float] at token <;> cases token
    obtain ⟨plain, value, fits⟩ := Numeral.of_integer?_eq_natural integer
    rw [plain] at parts
    obtain ⟨digits, whole, isWhole⟩ := Numeral.digits_of_ofChars? parts
    rw [whole] at isWhole value
    exact ⟨by rw [← value, Numeral.toDigits_ofDigits digits isWhole], fits⟩
  · rintro ⟨rfl, fits⟩
    have low : Number.minInteger ≤ n := Int.le_trans (by decide) (Int.natCast_nonneg n)
    exact Number.readsBack_integer low (Int.ofNat_le.mpr fits)

/-! ## Texts with one numeral -/

/-- A text is a numeral of a number, with nothing but blanks around it. -/
def IsNumeral (cs : List Char) (n : Number) : Prop :=
  ∃ before literal after, Gap before ∧ Gap after ∧ numeralToken? literal = some (.number n) ∧
    cs = before ++ literal ++ after

theorem gap_append {cs ds : List Char} (first : Gap cs) (second : Gap ds) : Gap (cs ++ ds) :=
  List.forall_mem_append.mpr ⟨first, second⟩

namespace Scanner

/-- A scanner says of the text behind it that it is blank, or blank up to the numeral that is being
read, or a numeral between blanks. Of other texts it says nothing. -/
structure Tells (cs : List Char) (s : Scanner) : Prop where
  blank : s = ⟨[], .between⟩ → Gap cs
  open_ : ∀ chars, s = ⟨[], .numeral chars⟩ → ∃ before, Gap before ∧ cs = before ++ chars.reverse
  number : ∀ n, s = ⟨[.number n], .between⟩ → IsNumeral cs n

variable {cs : List Char}

theorem tells_word (tokens : List Token) (letters : List Char) :
    Tells cs ⟨tokens, .word letters⟩ :=
  ⟨nofun, nofun, nofun⟩

theorem tells_string (tokens : List Token) (s : OpenString) : Tells cs ⟨tokens, .string s⟩ :=
  ⟨nofun, nofun, nofun⟩

theorem tells_failed (tokens : List Token) : Tells cs ⟨tokens, .failed⟩ :=
  ⟨nofun, nofun, nofun⟩

theorem tells_numeral {tokens : List Token} {chars : List Char}
    (open_ : tokens = [] → ∃ before, Gap before ∧ cs = before ++ chars.reverse) :
    Tells cs ⟨tokens, .numeral chars⟩ := by
  refine ⟨nofun, fun longer same => ?_, nofun⟩
  cases same
  exact open_ rfl

/-- Of a lexeme that ends, only a number behind blanks is told. -/
theorem tells_emit {tokens : List Token} {t : Option Token}
    (number : ∀ n, t = some (.number n) → tokens = [] → IsNumeral cs n) :
    Tells cs (emit tokens t) := by
  cases t with
  | none => exact tells_failed tokens
  | some t =>
      refine ⟨nofun, nofun, fun n same => ?_⟩
      cases same
      exact number n rfl rfl

theorem markToken?_ne_number (c : Char) (n : Number) : markToken? c ≠ some (.number n) := by
  unfold markToken?
  repeat' split
  all_goals nofun

theorem wordToken?_ne_number (letters : List Char) (n : Number) :
    wordToken? letters ≠ some (.number n) := by
  unfold wordToken?
  repeat' split
  all_goals nofun

theorem close_ne_number (s : OpenString) (n : Number) : s.close ≠ .number n := by
  unfold OpenString.close
  split <;> nofun

/-- One character more behind a text that has ended. -/
theorem tells_begin {tokens : List Token} (before : Tells cs ⟨tokens, .between⟩) (c : Char) :
    Tells (cs ++ [c]) (begin tokens c) := by
  unfold begin
  split
  · rename_i isBlank
    have last : Gap [c] := List.forall_mem_singleton.mpr isBlank
    refine ⟨fun same => gap_append (before.blank same) last, nofun, fun n same => ?_⟩
    obtain ⟨first, literal, after, isFirst, isAfter, read, rfl⟩ := before.number n same
    exact ⟨first, literal, after ++ [c], isFirst, gap_append isAfter last, read, by simp⟩
  · split
    · exact tells_string tokens .start
    · split
      · refine tells_numeral fun none => ?_
        obtain rfl : tokens = [] := none
        exact ⟨cs, before.blank rfl, rfl⟩
      · split
        · exact tells_word tokens [c]
        · exact tells_emit fun n mark => absurd mark (markToken?_ne_number c n)

/-- Inside a string only the closing quote ends a lexeme, and that is a string. -/
theorem tells_stepString (tokens : List Token) (s : OpenString) (c : Char) :
    Tells cs (stepString tokens s c) := by
  have closed : Tells cs (emit tokens (some s.close)) :=
    tells_emit fun n same => absurd (Option.some.inj same) (close_ne_number s n)
  unfold stepString
  split
  · split
    · exact closed
    · split
      · exact tells_string tokens _
      · split
        · exact tells_failed tokens
        · exact tells_string tokens _
  · split
    · exact tells_string tokens _
    · split
      · exact tells_string tokens _
      · exact tells_failed tokens
  · split
    · exact tells_failed tokens
    · split
      · exact tells_string tokens _
      · exact tells_string tokens _

/-- A numeral that ends is the one that was being read. -/
theorem tells_flush {s : Scanner} (before : Tells cs s) : Tells cs s.flush := by
  obtain ⟨tokens, mode⟩ := s
  cases mode with
  | between | string | failed => exact before
  | word letters => exact tells_emit fun n word => absurd word (wordToken?_ne_number _ n)
  | numeral chars =>
      refine tells_emit fun n read none => ?_
      obtain rfl : tokens = [] := none
      obtain ⟨first, isFirst, rfl⟩ := before.open_ chars rfl
      exact ⟨first, chars.reverse, [], isFirst, List.forall_mem_nil _, read, by simp⟩

/-- A character that ends a word or numeral is taken once more behind it. -/
theorem tells_begin_emit {tokens : List Token} {t : Option Token}
    (ended : Tells cs (emit tokens t)) (c : Char) :
    Tells (cs ++ [c]) (if (emit tokens t).mode = .between then begin (emit tokens t).tokens c
      else emit tokens t) := by
  cases t with
  | none => exact tells_failed tokens
  | some t => exact tells_begin ended c

/-- Taking a character keeps what a scanner tells. -/
theorem tells_step {s : Scanner} (before : Tells cs s) (c : Char) :
    Tells (cs ++ [c]) (s.step c) := by
  have ended := tells_flush before
  obtain ⟨tokens, mode⟩ := s
  cases mode with
  | between => exact tells_begin before c
  | string s => exact tells_stepString tokens s c
  | word letters =>
      cases letter : c.isLower with
      | true =>
          simp only [step, letter, if_true]
          exact tells_word tokens (c :: letters)
      | false =>
          simp only [step, letter, Bool.false_eq_true, if_false]
          exact tells_begin_emit ended c
  | numeral chars =>
      cases inside : isNumeralChar c with
      | true =>
          simp only [step, inside, if_true]
          refine tells_numeral fun none => ?_
          obtain rfl : tokens = [] := none
          obtain ⟨first, isFirst, rfl⟩ := before.open_ chars rfl
          exact ⟨first, isFirst, by simp⟩
      | false =>
          simp only [step, inside, Bool.false_eq_true, if_false]
          exact tells_begin_emit ended c
  | failed => exact tells_failed tokens

/-- A scanner tells what it tells after any text. -/
theorem tells_foldl (cs : List Char) : Tells cs (cs.foldl step .start) := by
  induction cs using List.reverseRecOn with
  | nil => exact ⟨fun _ => List.forall_mem_nil _, nofun, nofun⟩
  | append_singleton cs c ih =>
      rw [List.foldl_append]
      exact tells_step ih c

end Scanner

namespace Builder

/-- Inside a frame no number is completed. -/
def Nested : Builder → Prop
  | .growing frames _ => frames ≠ []
  | .complete tree => ∀ n, tree ≠ .number n
  | .failed => True

section

variable {frames : List Frame}

theorem nested_accept {tree : Tree} (compound : frames = [] → ∀ n, tree ≠ .number n) :
    (accept tree frames).Nested := by
  cases frames with
  | nil => exact compound rfl
  | cons frame frames => cases frame <;> exact List.cons_ne_nil _ _

theorem nested_closeArray (items : List Tree) : (closeArray items frames).Nested := by
  refine nested_accept fun _ n => ?_
  split <;> nofun

theorem nested_closeObject (members : List (String × Tree)) (legible : Bool) :
    (closeObject members legible frames).Nested := by
  refine nested_accept fun _ n => ?_
  split <;> nofun

theorem nested_beginValue (inside : frames ≠ []) (t : Token) : (beginValue frames t).Nested := by
  unfold beginValue
  split
  · exact List.cons_ne_nil _ _
  · exact List.cons_ne_nil _ _
  · split
    · exact nested_accept fun none => absurd none inside
    · trivial

theorem nested_beginMember (t : Token) : (beginMember frames t).Nested := by
  unfold beginMember
  split
  · exact List.cons_ne_nil _ _
  · exact List.cons_ne_nil _ _
  · trivial

end

/-- Taking a lexeme inside a frame completes no number. -/
theorem nested_step {b : Builder} (before : b.Nested) (t : Token) : (b.step t).Nested := by
  cases b with
  | growing frames next =>
      unfold step
      dsimp only
      split
      · exact nested_beginValue before t
      · split
        · exact nested_closeArray _
        · exact nested_beginValue before _
      · split
        · exact nested_closeObject _ _
        · exact nested_beginMember _
      · exact nested_beginMember _
      · split
        · exact before
        · trivial
      · split
        · exact before
        · exact nested_closeArray _
        · exact before
        · exact nested_closeObject _ _
        · trivial
  | complete => trivial
  | failed => trivial

theorem nested_foldl (ts : List Token) {b : Builder} (before : b.Nested) :
    (ts.foldl step b).Nested := by
  induction ts generalizing b with
  | nil => exact before
  | cons t ts ih => exact ih (nested_step before t)

end Builder

/-- Lexemes whose tree is a number are that number alone. -/
theorem eq_singleton_of_ofTokens? {ts : List Token} {n : Number}
    (built : Tree.ofTokens? ts = some (.number n)) : ts = [.number n] := by
  rw [Tree.ofTokens?_eq_some_iff] at built
  have notNested {b : Builder} {rest : List Token}
      (same : rest.foldl Builder.step b = .complete (.number n)) : ¬b.Nested := by
    intro inside
    have all := Builder.nested_foldl rest inside
    rw [same] at all
    exact all n rfl
  cases ts with
  | nil => cases built
  | cons t rest =>
      have opened : rest.foldl Builder.step (Builder.beginValue [] t) = .complete (.number n) :=
        built
      unfold Builder.beginValue at opened
      split at opened
      · exact absurd (List.cons_ne_nil _ _) (notNested opened)
      · exact absurd (List.cons_ne_nil _ _) (notNested opened)
      · split at opened
        · rename_i leaf isLeaf
          cases rest with
          | nil =>
              cases opened
              cases t <;> cases isLeaf
              rfl
          | cons u us =>
              have failed : us.foldl Builder.step .failed = .complete (.number n) := opened
              exact absurd trivial (notNested failed)
        · exact absurd trivial (notNested opened)

/-- A text whose only lexeme is a number is a numeral of it. -/
theorem isNumeral_of_tokens? {cs : List Char} {n : Number} (read : tokens? cs = some [.number n]) :
    IsNumeral cs n := by
  have tells := Scanner.tells_flush (Scanner.tells_foldl cs)
  simp only [tokens?] at read
  split at read
  · rename_i between
    rw [Option.some.injEq, List.reverse_eq_iff] at read
    exact tells.number n (congrArg₂ Scanner.mk read between)
  · cases read

/-! ## Literals -/

/-- A text is the literal of a natural number: its decimal digits, with nothing but blanks around
them. -/
def IsLiteral (text : String) (n : Nat) : Prop :=
  ∃ before after, Gap before ∧ Gap after ∧ text.toList = before ++ Nat.toDigits 10 n ++ after

/-- The number that the digits of a text stand for. -/
def literalValue (text : String) : Nat :=
  Numeral.ofDigits ((text.toList.filter Char.isDigit).map Numeral.digitValue)

theorem filter_isDigit_gap {cs : List Char} (isGap : Gap cs) : cs.filter Char.isDigit = [] := by
  rw [List.filter_eq_nil_iff]
  intro c member digit
  have blank := isGap c member
  simp only [isBlank, Bool.or_eq_true, beq_iff_eq] at blank
  rcases blank with ((rfl | rfl) | rfl) | rfl <;> cases digit

/-- A literal has the value of its number, so it is the literal of one number only. -/
theorem IsLiteral.value_eq {text : String} {n : Nat} (literal : IsLiteral text n) :
    literalValue text = n := by
  obtain ⟨before, after, isBefore, isAfter, whole⟩ := literal
  have digits : (Nat.toDigits 10 n).filter Char.isDigit = Nat.toDigits 10 n := by
    rw [List.filter_eq_self]
    exact fun c member => Nat.isDigit_of_mem_toDigits (by decide) (by decide) member
  rw [literalValue, whole, List.filter_append, List.filter_append, filter_isDigit_gap isBefore,
    filter_isDigit_gap isAfter, digits, List.nil_append, List.append_nil, Numeral.ofDigits_toDigits]

/-- The texts whose tree is a natural number are the literals of those that fit. -/
theorem parse?_eq_natural_iff {text : String} {n : Nat} :
    Tree.parse? text = some (.number (.integer n)) ↔ IsLiteral text n ∧ n ≤ Number.maxInteger := by
  constructor
  · intro read
    obtain ⟨ts, scanned, built⟩ := Option.bind_eq_some_iff.mp read
    rw [eq_singleton_of_ofTokens? built] at scanned
    obtain ⟨before, literal, after, isBefore, isAfter, numeral, whole⟩ :=
      isNumeral_of_tokens? scanned
    obtain ⟨rfl, fits⟩ := numeralToken?_eq_natural_iff.mp numeral
    exact ⟨⟨before, after, isBefore, isAfter, whole⟩, fits⟩
  · rintro ⟨⟨before, after, isBefore, isAfter, whole⟩, fits⟩
    have reads : (Number.integer n).ReadsBack := numeralToken?_eq_natural_iff.mpr ⟨rfl, fits⟩
    have behind : Spells after [] := by
      rw [← List.append_nil after]
      exact .gap isAfter .nil
    have ends : Delimited after := by
      rw [← List.append_nil after]
      exact .gap isAfter nofun
    have spelled : Spells text.toList [.number (.integer n)] := by
      rw [whole, List.append_assoc]
      exact .gap isBefore (.bare (t := .number (.integer n)) reads ends behind)
    rw [Tree.parse?, spelled.tokens?]
    rfl

end Json

end ScreenFlow
