import ScreenFlow.Proofs.Json.Numerals
import ScreenFlow.Proofs.Json.Parts

/-!
# Lexemes that are read as they were written

A text spells lexemes when it is their texts with blanks between them, and no word or numeral runs
into what follows. The scanner reads such a text as the lexemes that it spells, and both written
forms of a value spell the lexemes of the value.
-/

namespace ScreenFlow.Json

/-- Whether a character ends a word or a numeral before it. -/
def isDelimiter (c : Char) : Bool := !c.isLower && !isNumeralChar c

/-- A text does not go on with a word or numeral that ends before it. -/
def Delimited (cs : List Char) : Prop := ∀ c ∈ cs.head?, isDelimiter c = true

namespace Token

/-- Whether the end of a lexeme shows without looking at what follows. -/
def isClosed : Token → Bool
  | .openArray | .closeArray | .openObject | .closeObject | .comma | .colon | .string _ => true
  | _ => false

/-- A lexeme whose end shows in what follows, and that reads back. -/
def IsBare : Token → Prop
  | .null | .bool _ => True
  | .number n => n.ReadsBack
  | _ => False

end Token

/-- A text spells lexemes. -/
inductive Spells : List Char → List Token → Prop where
  | nil : Spells [] []
  | blank {c : Char} {cs : List Char} {ts : List Token} (isBlank : isBlank c = true)
      (rest : Spells cs ts) : Spells (c :: cs) ts
  | closed {t : Token} {cs : List Char} {ts : List Token} (isClosed : t.isClosed = true)
      (rest : Spells cs ts) : Spells (t.chars ++ cs) (t :: ts)
  | bare {t : Token} {cs : List Char} {ts : List Token} (isBare : t.IsBare)
      (ends : Delimited cs) (rest : Spells cs ts) : Spells (t.chars ++ cs) (t :: ts)

/-! ## Strings -/

/-- A string that is being read, all of it legible and no escape under way. -/
def OpenString.reading (chars : List Char) : OpenString := ⟨chars, true, none, .none⟩

namespace Scanner

/-- A control character is read back from its escape. -/
theorem foldl_escapedControl (before : List Token) (chars : List Char) {c : Char}
    (control : c.toNat < 32) :
    (escapedChar c).foldl step ⟨before, .string (.reading chars)⟩ =
      ⟨before, .string (.reading (c :: chars))⟩ := by
  rw [← Char.ofNat_toNat c]
  generalize c.toNat = n at control
  -- The 32 control characters have escapes of different shapes, so each is run.
  interval_cases n <;> rfl

/-- A character inside quotes is read back from what is written for it. -/
theorem foldl_escapedChar (before : List Token) (chars : List Char) (c : Char) :
    (escapedChar c).foldl step ⟨before, .string (.reading chars)⟩ =
      ⟨before, .string (.reading (c :: chars))⟩ := by
  by_cases control : c.toNat < 32
  · exact foldl_escapedControl before chars control
  · by_cases quote : c = '"'
    · subst quote
      rfl
    · by_cases backslash : c = '\\'
      · subst backslash
        rfl
      · have plain : escapedChar c = [c] := by
          have other {d : Char} (low : d.toNat < 32) : c ≠ d := fun same => control (same ▸ low)
          rw [escapedChar, if_neg quote, if_neg backslash, if_neg (other (by decide)),
            if_neg (other (by decide)), if_neg (other (by decide)), if_neg (by omega),
            if_neg (by omega), if_neg control]
        rw [plain]
        show stepString before (.reading chars) c = _
        simp only [stepString, OpenString.reading, quote, backslash, control, if_false]
        rfl

theorem foldl_escapedChars (before : List Token) (chars cs : List Char) :
    (cs.flatMap escapedChar).foldl step ⟨before, .string (.reading chars)⟩ =
      ⟨before, .string (.reading (cs.reverse ++ chars))⟩ := by
  induction cs generalizing chars with
  | nil => rfl
  | cons c cs ih =>
      rw [List.flatMap_cons, List.foldl_append, foldl_escapedChar, ih, List.reverse_cons,
        List.append_assoc, List.singleton_append]

/-- A text in quotes is read back. -/
theorem foldl_quotedChars (before : List Token) (s : String) :
    (quotedChars s).foldl step ⟨before, .between⟩ = ⟨.string s :: before, .between⟩ := by
  have opened : step ⟨before, .between⟩ '"' = ⟨before, .string (.reading [])⟩ := rfl
  have closed (chars : List Char) : step ⟨before, .string (.reading chars)⟩ '"' =
      ⟨.string (String.ofList chars.reverse) :: before, .between⟩ := rfl
  rw [quotedChars, List.cons_append, List.foldl_cons, opened, List.foldl_append,
    foldl_escapedChars, List.foldl_cons, List.foldl_nil, closed, List.append_nil,
    List.reverse_reverse, String.ofList_toList]

/-! ## Single lexemes -/

/-- A lexeme that shows its own end is read as soon as it ends. -/
theorem foldl_closed (before : List Token) {t : Token} (isClosed : t.isClosed = true) :
    t.chars.foldl step ⟨before, .between⟩ = ⟨t :: before, .between⟩ := by
  cases t with
  | string s => exact foldl_quotedChars before s
  | openArray | closeArray | openObject | closeObject | comma | colon => rfl
  | null | bool | number | illegibleNumber | illegibleString => cases isClosed

/-- Inside a numeral its characters are taken. -/
theorem foldl_numeral (before : List Token) (taken : List Char) {cs : List Char}
    (all : ∀ c ∈ cs, isNumeralChar c = true) :
    cs.foldl step ⟨before, .numeral taken⟩ = ⟨before, .numeral (cs.reverse ++ taken)⟩ := by
  induction cs generalizing taken with
  | nil => rfl
  | cons c cs ih =>
      have first : step ⟨before, .numeral taken⟩ c = ⟨before, .numeral (c :: taken)⟩ := by
        simp only [step, all c List.mem_cons_self, if_true]
      rw [List.foldl_cons, first, ih _ fun d member => all d (List.mem_cons_of_mem c member),
        List.reverse_cons, List.append_assoc, List.singleton_append]

theorem flush_number (before : List Token) {n : Number} (reads : n.ReadsBack) :
    (n.chars.foldl step ⟨before, .between⟩).flush = ⟨.number n :: before, .between⟩ := by
  obtain ⟨⟨c, rest, shape, first⟩, all⟩ := reads.chars
  have digitOrMinus : c.isDigit = true ∨ c = '-' := by simpa using first
  -- The scanner looks for blanks and quotes first; no numeral begins with one.
  have begins : step ⟨before, .between⟩ c = ⟨before, .numeral [c]⟩ := by
    have notBlank : isBlank c = false := by
      rcases digitOrMinus with digit | rfl
      · by_contra blank
        simp only [isBlank, Bool.not_eq_false, Bool.or_eq_true, beq_iff_eq] at blank
        rcases blank with ((rfl | rfl) | rfl) | rfl <;> exact absurd digit (by decide)
      · rfl
    have notQuote : c ≠ '"' := by
      rintro rfl
      exact absurd first (by decide)
    simp only [step, begin, notBlank, notQuote, first, if_true, if_false, Bool.false_eq_true]
  rw [shape] at all
  rw [shape, List.foldl_cons, begins, foldl_numeral before [c]
    fun d member => all d (List.mem_cons_of_mem c member)]
  show emit before (numeralToken? (rest.reverse ++ [c]).reverse) = _
  rw [List.reverse_append, List.reverse_reverse, List.reverse_singleton, List.singleton_append,
    ← shape, reads]
  rfl

/-- A lexeme that does not show its own end is read when it is ended. -/
theorem flush_bare (before : List Token) {t : Token} (isBare : t.IsBare) :
    (t.chars.foldl step ⟨before, .between⟩).flush = ⟨t :: before, .between⟩ := by
  cases t with
  | null => rfl
  | bool b => cases b <;> rfl
  | number n => exact flush_number before isBare
  | openArray | closeArray | openObject | closeObject | comma | colon | string | illegibleNumber
  | illegibleString => cases isBare

/-! ## Whole texts -/

/-- A delimiter ends what is being read and is then taken like any other character. -/
theorem step_of_flush {s : Scanner} {before : List Token} (ended : s.flush = ⟨before, .between⟩)
    {c : Char} (delimiter : isDelimiter c = true) :
    s.step c = step ⟨before, .between⟩ c := by
  rw [isDelimiter, Bool.and_eq_true, Bool.not_eq_true', Bool.not_eq_true'] at delimiter
  obtain ⟨notLetter, notNumeral⟩ := delimiter
  obtain ⟨tokens, mode⟩ := s
  -- A word or numeral under way is ended by the delimiter, which is then taken between lexemes.
  cases mode with
  | between => rw [← ended]; rfl
  | word letters =>
      simp only [step, notLetter, Bool.false_eq_true, if_false, ended, if_true]
  | numeral chars =>
      simp only [step, notNumeral, Bool.false_eq_true, if_false, ended, if_true]
  | string | failed => cases ended

theorem flush_foldl_of_flush {s : Scanner} {before : List Token}
    (ended : s.flush = ⟨before, .between⟩) {cs : List Char} (delimited : Delimited cs) :
    (cs.foldl step s).flush = (cs.foldl step ⟨before, .between⟩).flush := by
  cases cs with
  | nil => exact ended
  | cons c cs => rw [List.foldl_cons, List.foldl_cons, step_of_flush ended (delimited c rfl)]

theorem flush_foldl_of_spells {cs : List Char} {ts : List Token} (spells : Spells cs ts)
    (before : List Token) :
    (cs.foldl step ⟨before, .between⟩).flush = ⟨ts.reverse ++ before, .between⟩ := by
  -- Along the spelling: after each lexeme the scanner is between lexemes, with one more before it.
  induction spells generalizing before with
  | nil => rfl
  | @blank c cs ts isBlank _ ih =>
      have skipped : step ⟨before, .between⟩ c = ⟨before, .between⟩ := by
        simp only [step, begin, isBlank, if_true]
      rw [List.foldl_cons, skipped, ih]
  | @closed t cs ts isClosed _ ih =>
      rw [List.foldl_append, foldl_closed before isClosed, ih, List.reverse_cons,
        List.append_assoc, List.singleton_append]
  | @bare t cs ts isBare ends _ ih =>
      rw [List.foldl_append, flush_foldl_of_flush (flush_bare before isBare) ends, ih,
        List.reverse_cons, List.append_assoc, List.singleton_append]

end Scanner

/-- A text is read as the lexemes that it spells. -/
theorem Spells.tokens? {cs : List Char} {ts : List Token} (spells : Spells cs ts) :
    tokens? cs = some ts := by
  have read := Scanner.flush_foldl_of_spells spells []
  rw [List.append_nil] at read
  simp only [Json.tokens?, Scanner.start, read, if_true, List.reverse_reverse]

/-! ## The two written forms of a value -/

namespace Value

/-- If a value is a number, its text reads back. -/
def ReadsBack : Value → Prop
  | .number n => n.ReadsBack
  | _ => True

instance : DecidablePred ReadsBack
  | .number n => inferInstanceAs (Decidable n.ReadsBack)
  | .null | .bool _ | .string _ | .array _ | .object _ => isTrue trivial

/-- A text spells the lexemes of a value, whatever follows behind a delimiter. -/
def SpelledBy (v : Value) (cs : List Char) : Prop :=
  ∀ rest ts, Spells rest ts → Delimited rest → Spells (cs ++ rest) (v.tokens ++ ts)

end Value

/-- Characters between lexemes that are all blank. -/
def Gap (cs : List Char) : Prop := ∀ c ∈ cs, isBlank c = true

namespace Spells

theorem gap {gap cs : List Char} {ts : List Token} (isGap : Gap gap) (spells : Spells cs ts) :
    Spells (gap ++ cs) ts := by
  induction gap with
  | nil => exact spells
  | cons c gap ih =>
      exact .blank (isGap c List.mem_cons_self) (ih fun d member =>
        isGap d (List.mem_cons_of_mem c member))

end Spells

theorem isDelimiter_of_isBlank {c : Char} (blank : isBlank c = true) : isDelimiter c = true := by
  simp only [isBlank, Bool.or_eq_true, beq_iff_eq] at blank
  rcases blank with ((rfl | rfl) | rfl) | rfl <;> decide

theorem Delimited.gap {gap cs : List Char} (isGap : Gap gap) (delimited : Delimited cs) :
    Delimited (gap ++ cs) := by
  cases gap with
  | nil => exact delimited
  | cons c gap =>
      intro d first
      cases first
      exact isDelimiter_of_isBlank (isGap c List.mem_cons_self)

theorem delimited_cons {c : Char} {cs : List Char} (delimiter : isDelimiter c = true) :
    Delimited (c :: cs) := by
  intro d first
  cases first
  exact delimiter

namespace Value

theorem itemTokens_eq (vs : List Value) :
    itemTokens vs = vs.flatMap fun v => .comma :: v.tokens := by
  induction vs with
  | nil => rfl
  | cons v vs ih => rw [itemTokens, ih, List.flatMap_cons]

theorem memberTokens_eq (ms : List (String × Value)) :
    memberTokens ms = ms.flatMap fun m => .comma :: .string m.1 :: .colon :: m.2.tokens := by
  induction ms with
  | nil => rfl
  | cons m ms ih => rw [memberTokens, ih, List.flatMap_cons]

/-- Lexemes of parts, each after a comma, are spelled by the texts of the parts after commas. -/
private theorem spells_parts {α : Type} {tokens : α → List Token} {chars : α → List Char}
    {as : List α} (parts : ∀ a ∈ as, ∀ rest ts, Spells rest ts → Delimited rest →
      Spells (chars a ++ rest) (tokens a ++ ts))
    {rest : List Char} {ts : List Token} (spells : Spells rest ts) (delimited : Delimited rest) :
    Spells ((as.flatMap fun a => ',' :: chars a) ++ rest)
        ((as.flatMap fun a => .comma :: tokens a) ++ ts) ∧
      Delimited ((as.flatMap fun a => ',' :: chars a) ++ rest) := by
  -- A part must know that a delimiter follows, so this is carried along: the next comma is one.
  induction as with
  | nil => exact ⟨spells, delimited⟩
  | cons a as ih =>
      obtain ⟨others, ends⟩ := ih fun b member => parts b (List.mem_cons_of_mem a member)
      have first := parts a List.mem_cons_self _ _ others ends
      simp only [List.flatMap_cons, List.cons_append, List.append_assoc]
      exact ⟨.closed (t := .comma) rfl first, delimited_cons rfl⟩

section

variable {gap last colonGap : List Char} (isGap : Gap gap) (isLast : Gap last)
  {chars : Value → List Char}

include isGap isLast

/-- An array is spelled by the texts of its items with commas and gaps between them. -/
theorem spelledBy_array {v : Value} {vs : List Value} (head : v.SpelledBy (chars v))
    (tail : ∀ w ∈ vs, w.SpelledBy (chars w)) :
    (array (v :: vs)).SpelledBy ('[' :: gap ++ chars v ++
      (vs.flatMap fun w => ',' :: (gap ++ chars w)) ++ last ++ [']']) := by
  intro rest ts spells delimited
  have closing : Spells (last ++ ']' :: rest) (.closeArray :: ts) :=
    .gap isLast (.closed (t := .closeArray) rfl spells)
  have closingEnds : Delimited (last ++ ']' :: rest) := .gap isLast (delimited_cons rfl)
  have gapped : ∀ w ∈ vs, ∀ rest ts, Spells rest ts → Delimited rest →
      Spells (gap ++ chars w ++ rest) (w.tokens ++ ts) := by
    intro w member rest ts spells delimited
    rw [List.append_assoc]
    exact .gap isGap (tail w member rest ts spells delimited)
  obtain ⟨others, ends⟩ := spells_parts gapped closing closingEnds
  have first := Spells.closed (t := .openArray) rfl (.gap isGap (head _ _ others ends))
  rw [tokens, itemTokens_eq]
  simpa only [Token.chars, List.cons_append, List.nil_append, List.append_assoc] using first

/-- An object is spelled by its keys and the texts of their values with marks and gaps between. -/
theorem spelledBy_object (isColonGap : Gap colonGap) {m : String × Value}
    {ms : List (String × Value)} (head : m.2.SpelledBy (chars m.2))
    (tail : ∀ w ∈ ms, w.2.SpelledBy (chars w.2)) :
    (object (m :: ms)).SpelledBy
      ('\x7b' :: gap ++ (quotedChars m.1 ++ ':' :: (colonGap ++ chars m.2)) ++
        (ms.flatMap fun w =>
          ',' :: (gap ++ (quotedChars w.1 ++ ':' :: (colonGap ++ chars w.2)))) ++
        last ++ ['\x7d']) := by
  intro rest ts spells delimited
  have closing : Spells (last ++ '\x7d' :: rest) (.closeObject :: ts) :=
    .gap isLast (.closed (t := .closeObject) rfl spells)
  have closingEnds : Delimited (last ++ '\x7d' :: rest) := .gap isLast (delimited_cons rfl)
  have member {w : String × Value} (value : w.2.SpelledBy (chars w.2)) : ∀ rest ts,
      Spells rest ts → Delimited rest →
        Spells (gap ++ (quotedChars w.1 ++ ':' :: (colonGap ++ chars w.2)) ++ rest)
          (.string w.1 :: .colon :: w.2.tokens ++ ts) := by
    intro rest ts spells delimited
    have valueSpells := Spells.closed (t := .colon) rfl
      (.gap isColonGap (value rest ts spells delimited))
    have keySpells := Spells.gap isGap (.closed (t := .string w.1) rfl valueSpells)
    simpa only [Token.chars, List.cons_append, List.nil_append, List.append_assoc] using keySpells
  obtain ⟨others, ends⟩ := spells_parts (fun w inside => member (tail w inside)) closing closingEnds
  have first := Spells.closed (t := .openObject) rfl (member head _ _ others ends)
  rw [tokens, memberTokens_eq]
  simpa only [Token.chars, List.cons_append, List.nil_append, List.append_assoc] using first

end

/-- A value whose text is one lexeme is spelled by it. -/
theorem spelledBy_bare {v : Value} {t : Token} (single : v.tokens = [t]) (isBare : t.IsBare) :
    v.SpelledBy t.chars := by
  intro rest ts spells delimited
  rw [single]
  exact .bare isBare delimited spells

theorem spelledBy_string (s : String) : (string s).SpelledBy (quotedChars s) :=
  fun _ _ spells _ => .closed (t := .string s) rfl spells

theorem spelledBy_emptyArray : (array []).SpelledBy ['[', ']'] :=
  fun _ _ spells _ => .closed (t := .openArray) rfl (.closed (t := .closeArray) rfl spells)

theorem spelledBy_emptyObject : (object []).SpelledBy ['\x7b', '\x7d'] :=
  fun _ _ spells _ => .closed (t := .openObject) rfl (.closed (t := .closeObject) rfl spells)

private theorem gap_nil : Gap [] := List.forall_mem_nil _

/-- The characters of the compact form. -/
def compactChars (v : Value) : List Char := v.tokens.flatMap Token.chars

/-- The compact form spells the lexemes of a value. -/
theorem spelledBy_compact {v : Value} (readsBack : v.All ReadsBack) :
    v.SpelledBy v.compactChars := by
  induction v using partInduction with
  | null => exact spelledBy_bare (t := .null) rfl trivial
  | bool b =>
      have spelled := spelledBy_bare (v := .bool b) (t := .bool b) rfl trivial
      simpa [compactChars, tokens] using spelled
  | number n =>
      have reads : n.ReadsBack := (all_number n).mp readsBack
      have spelled := spelledBy_bare (v := .number n) (t := .number n) rfl reads
      simpa [compactChars, tokens] using spelled
  | string s =>
      have spelled := spelledBy_string s
      simpa [compactChars, tokens, Token.chars] using spelled
  | array items ih =>
      have parts := ((all_array items).mp readsBack).2
      cases items with
      | nil => exact spelledBy_emptyArray
      | cons v vs =>
          have spelled := spelledBy_array gap_nil gap_nil (ih v List.mem_cons_self
            (parts v List.mem_cons_self)) fun w member =>
              ih w (List.mem_cons_of_mem v member) (parts w (List.mem_cons_of_mem v member))
          simpa [compactChars, tokens, itemTokens_eq, List.flatMap_assoc, Token.chars] using spelled
  | object members ih =>
      have parts := ((all_object members).mp readsBack).2
      cases members with
      | nil => exact spelledBy_emptyObject
      | cons m ms =>
          have spelled := spelledBy_object gap_nil gap_nil gap_nil (ih m List.mem_cons_self
            (parts m List.mem_cons_self)) fun w member =>
              ih w (List.mem_cons_of_mem m member) (parts w (List.mem_cons_of_mem m member))
          simpa [compactChars, tokens, memberTokens_eq, List.flatMap_assoc, Token.chars] using
            spelled

theorem prettyItems_eq (level : Nat) (vs : List Value) :
    prettyItems level vs = vs.flatMap fun v => ',' :: (newLine level ++ prettyChars level v) := by
  induction vs with
  | nil => rfl
  | cons v vs ih => rw [prettyItems, ih, List.flatMap_cons, List.cons_append]

theorem prettyMembers_eq (level : Nat) (ms : List (String × Value)) :
    prettyMembers level ms = ms.flatMap fun m =>
      ',' :: (newLine level ++ (keyChars m.1 ++ prettyChars level m.2)) := by
  induction ms with
  | nil => rfl
  | cons m ms ih =>
      rw [prettyMembers, ih, List.flatMap_cons]
      simp only [List.cons_append, List.append_assoc]

private theorem gap_newLine (level : Nat) : Gap (newLine level) := by
  intro c member
  rcases List.mem_cons.mp member with rfl | member
  · rfl
  · rw [List.eq_of_mem_replicate member]
    rfl

/-- The pretty form spells the lexemes of a value. -/
theorem spelledBy_pretty {v : Value} (readsBack : v.All ReadsBack) (level : Nat) :
    v.SpelledBy (v.prettyChars level) := by
  -- Items stand one level deeper than their array, so the level varies in the induction.
  induction v using partInduction generalizing level with
  | null => exact spelledBy_bare (t := .null) rfl trivial
  | bool b => exact spelledBy_bare (t := .bool b) rfl trivial
  | number n => exact spelledBy_bare (t := .number n) rfl ((all_number n).mp readsBack)
  | string s => exact spelledBy_string s
  | array items ih =>
      have parts := ((all_array items).mp readsBack).2
      cases items with
      | nil => exact spelledBy_emptyArray
      | cons v vs =>
          have spelled := spelledBy_array (gap_newLine (level + 1)) (gap_newLine level)
            (ih v List.mem_cons_self (parts v List.mem_cons_self) (level + 1)) fun w member =>
              ih w (List.mem_cons_of_mem v member) (parts w (List.mem_cons_of_mem v member)) _
          rwa [← prettyItems_eq] at spelled
  | object members ih =>
      have parts := ((all_object members).mp readsBack).2
      have gapSpace : Gap [' '] := fun c member => List.mem_singleton.mp member ▸ rfl
      cases members with
      | nil => exact spelledBy_emptyObject
      | cons m ms =>
          have spelled := spelledBy_object (gap_newLine (level + 1)) (gap_newLine level) gapSpace
            (ih m List.mem_cons_self (parts m List.mem_cons_self) (level + 1)) fun w member =>
              ih w (List.mem_cons_of_mem m member) (parts w (List.mem_cons_of_mem m member)) _
          simpa [prettyChars, prettyMembers_eq, keyChars, Token.chars] using spelled

/-- The text of a value, in both forms, is read as the lexemes of the value. -/
theorem tokens?_render {v : Value} (readsBack : v.All ReadsBack) (indented : Bool) :
    tokens? (v.render indented).toList = some v.tokens := by
  -- Nothing follows the text of the whole value.
  have whole {cs : List Char} (spelled : v.SpelledBy cs) : tokens? cs = some v.tokens := by
    have spells := spelled [] [] .nil fun c first => nomatch first
    rw [List.append_nil, List.append_nil] at spells
    exact spells.tokens?
  cases indented with
  | true =>
      show tokens? (String.ofList (v.prettyChars 0)).toList = _
      rw [String.toList_ofList]
      exact whole (spelledBy_pretty readsBack 0)
  | false =>
      show tokens? (String.ofList v.compactChars).toList = _
      rw [String.toList_ofList]
      exact whole (spelledBy_compact readsBack)

end Value

end ScreenFlow.Json
