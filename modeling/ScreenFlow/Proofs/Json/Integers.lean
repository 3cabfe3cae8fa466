import ScreenFlow.Proofs.Entries
import ScreenFlow.Proofs.Json.Building

/-!
# Integers that fit

A numeral becomes an integer only if it has at most 64 bits. The scanner keeps that for lexemes and
the builder for trees, so all integers in a tree that was read from a text fit, and so do those in
the value it stands for.
-/

namespace ScreenFlow

/-- If a number is an integer, it has at most 64 bits. -/
def Number.Fits : Number → Prop
  | .integer n => Number.minInteger ≤ n ∧ n ≤ Number.maxInteger
  | .float _ => True

instance : DecidablePred Number.Fits
  | .integer n => inferInstanceAs (Decidable (Number.minInteger ≤ n ∧ n ≤ Number.maxInteger))
  | .float _ => isTrue trivial

/-- A numeral stands for a number that fits. -/
theorem Numeral.fits_of_number? {numeral : Numeral} {n : Number}
    (read : numeral.number? = some n) : n.Fits := by
  rw [number?] at read
  cases h : numeral.integer? with
  | some i =>
      rw [h] at read
      cases read
      -- Both bounds are checked where the integer is made, each for one sign; the other holds by
      -- the sign.
      unfold integer? at h
      simp only at h
      have wide : Number.minInteger ≤ 0 := by decide
      split at h
      · cases h
      · split at h
        · split at h
          · rename_i fits
            cases h
            refine ⟨fits.2, ?_⟩
            have := Int.natCast_nonneg (ofDigits numeral.whole)
            have := Int.natCast_nonneg Number.maxInteger
            omega
          · cases h
        · split at h
          · rename_i fits
            cases h
            exact ⟨Int.le_trans wide (Int.natCast_nonneg _), fits⟩
          · cases h
  | none =>
      rw [h] at read
      obtain ⟨x, -, rfl⟩ := Option.map_eq_some_iff.mp read
      trivial

namespace Json

/-! ## Lexemes -/

/-- If a lexeme is a number, it fits. -/
def Token.Fits : Token → Prop
  | .number n => n.Fits
  | _ => True

theorem fits_of_numeralToken? {chars : List Char} {t : Token}
    (read : numeralToken? chars = some t) : t.Fits := by
  obtain ⟨numeral, -, rfl⟩ := Option.map_eq_some_iff.mp read
  cases h : numeral.number? with
  | some n => exact Numeral.fits_of_number? h
  | none => trivial

theorem fits_of_wordToken? {letters : List Char} {t : Token} (read : wordToken? letters = some t) :
    t.Fits := by
  unfold wordToken? at read
  split at read
  · cases read; trivial
  · split at read
    · cases read; trivial
    · split at read
      · cases read; trivial
      · cases read

theorem fits_of_markToken? {c : Char} {t : Token} (read : markToken? c = some t) : t.Fits := by
  unfold markToken? at read
  repeat' split at read
  all_goals first | (cases read; trivial) | cases read

namespace Scanner

/-- All lexemes read so far fit. -/
def Fits (s : Scanner) : Prop := ∀ t ∈ s.tokens, t.Fits

theorem fits_emit {tokens : List Token} (before : ∀ t ∈ tokens, t.Fits) {next : Option Token}
    (fits : ∀ t ∈ next, t.Fits) : (emit tokens next).Fits := by
  cases next with
  | none => exact before
  | some t => exact List.forall_mem_cons.mpr ⟨fits t rfl, before⟩

theorem fits_begin {tokens : List Token} (before : ∀ t ∈ tokens, t.Fits) (c : Char) :
    (begin tokens c).Fits := by
  unfold begin
  split
  · exact before
  · split
    · exact before
    · split
      · exact before
      · split
        · exact before
        · exact fits_emit before fun t mark => fits_of_markToken? mark

theorem fits_stepString {tokens : List Token} (before : ∀ t ∈ tokens, t.Fits) (s : OpenString)
    (c : Char) : (stepString tokens s c).Fits := by
  have closed : s.close.Fits := by
    unfold OpenString.close
    split <;> trivial
  unfold stepString
  -- A character either stays inside the string or closes it.
  repeat' split
  all_goals first | exact before | exact List.forall_mem_cons.mpr ⟨closed, before⟩

theorem fits_flush {s : Scanner} (before : s.Fits) : s.flush.Fits := by
  unfold flush
  split
  · exact fits_emit before fun t word => fits_of_wordToken? word
  · exact fits_emit before fun t numeral => fits_of_numeralToken? numeral
  · exact before

/-- Taking a character keeps that all lexemes fit. -/
theorem fits_step {s : Scanner} (before : s.Fits) (c : Char) : (s.step c).Fits := by
  -- One case for each mode. A delimiter ends a word or numeral and then begins something itself.
  unfold step
  split
  · exact fits_begin before c
  · exact fits_stepString before _ c
  · split
    · exact before
    · dsimp only
      split
      · exact fits_begin (fits_flush before) c
      · exact fits_flush before
  · split
    · exact before
    · dsimp only
      split
      · exact fits_begin (fits_flush before) c
      · exact fits_flush before
  · exact before

theorem fits_foldl {s : Scanner} (before : s.Fits) (cs : List Char) : (cs.foldl step s).Fits := by
  induction cs generalizing s with
  | nil => exact before
  | cons c cs ih => exact ih (fits_step before c)

end Scanner

theorem fits_of_tokens? {cs : List Char} {ts : List Token} (read : tokens? cs = some ts) :
    ∀ t ∈ ts, t.Fits := by
  have last := Scanner.fits_flush (Scanner.fits_foldl
    (s := .start) (List.forall_mem_nil _) cs)
  simp only [tokens?] at read
  split at read
  · cases read
    intro t member
    exact last t (List.mem_reverse.mp member)
  · cases read

/-! ## Trees -/

namespace Tree

mutual

/-- All integers in a tree fit. -/
def Fits : Tree → Prop
  | .number n => n.Fits
  | .array items => ItemsFit items
  | .object members => MembersFit members
  | _ => True
termination_by structural t => t

/-- All integers in a list of trees fit. -/
def ItemsFit : List Tree → Prop
  | [] => True
  | t :: ts => Fits t ∧ ItemsFit ts
termination_by structural ts => ts

/-- All integers in a list of members fit. -/
def MembersFit : List (String × Tree) → Prop
  | [] => True
  | (_, t) :: ms => Fits t ∧ MembersFit ms
termination_by structural ms => ms

end

theorem itemsFit_iff {ts : List Tree} : ItemsFit ts ↔ ∀ t ∈ ts, t.Fits := by
  induction ts with
  | nil => exact iff_of_true trivial (List.forall_mem_nil _)
  | cons t ts ih => rw [ItemsFit, ih, List.forall_mem_cons]

theorem membersFit_iff {ms : List (String × Tree)} : MembersFit ms ↔ ∀ m ∈ ms, m.2.Fits := by
  induction ms with
  | nil => exact iff_of_true trivial (List.forall_mem_nil _)
  | cons m ms ih => rw [MembersFit, ih, List.forall_mem_cons]

theorem fits_array {ts : List Tree} : (array ts).Fits ↔ ∀ t ∈ ts, t.Fits := by
  rw [Fits, itemsFit_iff]

theorem fits_object {ms : List (String × Tree)} : (object ms).Fits ↔ ∀ m ∈ ms, m.2.Fits := by
  rw [Fits, membersFit_iff]

end Tree

theorem Token.fits_of_leaf? {t : Token} {leaf : Tree} (fits : t.Fits) (read : t.leaf? = some leaf) :
    leaf.Fits := by
  cases t <;> cases read <;> exact fits

namespace Tree

/-- All integers in the tree of a text fit. -/
theorem fits_of_parse? {text : String} {t : Tree} (read : parse? text = some t) : t.Fits := by
  have heritable : Heritable fun _ t => t.Fits :=
    ⟨fun _ => trivial, fits_array.mpr, fits_object.mpr⟩
  refine heritable.of_parse? ?_ read
  intro ts scanned t member leaf _ found
  exact Token.fits_of_leaf? (fits_of_tokens? scanned t member) found

end Tree

/-! ## Values -/

namespace Value

/-- If a value is an integer, it has at most 64 bits. -/
def HasFittingInteger : Value → Prop
  | .number n => n.Fits
  | _ => True

instance : DecidablePred HasFittingInteger
  | .number n => inferInstanceAs (Decidable n.Fits)
  | .null | .bool _ | .string _ | .array _ | .object _ => isTrue trivial

/-- No key stands twice in an object, and an integer has at most 64 bits. -/
def IsProper (v : Value) : Prop := v.HasDistinctKeys ∧ v.HasFittingInteger

instance : DecidablePred IsProper := fun v =>
  inferInstanceAs (Decidable (v.HasDistinctKeys ∧ v.HasFittingInteger))

/-- If a value is a float, its text reads back. -/
def HasReadableFloat : Value → Prop
  | .number (.float x) => (Number.float x).ReadsBack
  | _ => True

instance : DecidablePred HasReadableFloat
  | .number (.float x) => inferInstanceAs (Decidable (Number.float x).ReadsBack)
  | .number (.integer _) | .null | .bool _ | .string _ | .array _ | .object _ => isTrue trivial

/-- The text of an integer that fits always reads back, so only that of a float is in question. -/
theorem all_readsBack {v : Value} (proper : v.All IsProper) (floats : v.All HasReadableFloat) :
    v.All ReadsBack := by
  intro w inside
  -- Only numbers can fail to read back, and of these only floats.
  cases w with
  | number n =>
      cases n with
      | integer n =>
          obtain ⟨low, high⟩ := (proper _ inside).2
          exact Number.readsBack_integer low high
      | float x => exact floats _ inside
  | null | bool | string | array | object => trivial

/-- If all integers in a value fit, so do those in its tree. -/
theorem fits_toTree {v : Value} (proper : v.All IsProper) : v.toTree.Fits := by
  induction v using partInduction with
  | null | bool | string => trivial
  | number n => exact ((all_number n).mp proper).2
  | array items ih =>
      rw [all_array] at proper
      rw [toTree, itemTrees_eq, Tree.fits_array, List.forall_mem_map]
      intro v member
      exact ih v member (proper.2 v member)
  | object members ih =>
      rw [all_object] at proper
      rw [toTree, memberTrees_eq, Tree.fits_object, List.forall_mem_map]
      intro m member
      exact ih m member (proper.2 m member)

end Value

namespace Tree

/-- To prove something of every tree, prove it of leaves, and of arrays and objects from what they
hold. -/
theorem partInduction {motive : Tree → Prop} (null : motive .null) (bool : ∀ b, motive (.bool b))
    (number : ∀ n, motive (.number n)) (string : ∀ s, motive (.string s))
    (array : ∀ items, (∀ t ∈ items, motive t) → motive (.array items))
    (object : ∀ members : List (String × Tree), (∀ m ∈ members, motive m.2) →
      motive (.object members))
    (illegible : motive .illegible) (t : Tree) : motive t :=
  @Tree.rec motive (fun items => ∀ t ∈ items, motive t)
    (fun members => ∀ m ∈ members, motive m.2) (fun m => motive m.2)
    null bool number string array object illegible
    (List.forall_mem_nil _)
    (fun _ _ head tail => List.forall_mem_cons.mpr ⟨head, tail⟩)
    (List.forall_mem_nil _)
    (fun _ _ head tail => List.forall_mem_cons.mpr ⟨head, tail⟩)
    (fun _ _ tree => tree) t

/-- The items of an array and the values of the members of an object. -/
def parts : Tree → List Tree
  | .array items => items
  | .object members => members.map Prod.snd
  | _ => []

/-- To prove something of every tree, prove it of each from its parts. -/
theorem partsInduction {motive : Tree → Prop}
    (step : ∀ t : Tree, (∀ part ∈ t.parts, motive part) → motive t) (t : Tree) : motive t := by
  induction t using partInduction with
  | array items ih => exact step _ ih
  | object members ih => exact step _ (List.forall_mem_map.mpr ih)
  | null | bool | number | string | illegible => exact step _ (List.forall_mem_nil _)

theorem fits_of_mem_parts {t : Tree} (fits : t.Fits) : ∀ part ∈ t.parts, part.Fits := by
  cases t with
  | array items => exact fits_array.mp fits
  | object members => exact List.forall_mem_map.mpr (fits_object.mp fits)
  | null | bool | number | string | illegible => exact List.forall_mem_nil _

/-- The values of items come from items. -/
theorem exists_of_itemValues? {ts : List Tree} {vs : List Value} (read : itemValues? ts = some vs) :
    ∀ v ∈ vs, ∃ t ∈ ts, t.toValue? = some v :=
  exists_left_of_forall₂ (itemValues?_eq_some_iff.mp read)

/-- The values of members come from members. -/
theorem exists_of_memberValues? {ms : List (String × Tree)} {vs : List (String × Value)}
    (read : memberValues? ms = some vs) : ∀ v ∈ vs, ∃ m ∈ ms, m.2.toValue? = some v.2 := by
  intro v member
  obtain ⟨m, among, -, found⟩ :=
    exists_left_of_forall₂ (memberValues?_eq_some_iff.mp read) v member
  exact ⟨m, among, found⟩

/-- The value of a tree whose integers fit is proper. -/
theorem proper_of_toValue? {t : Tree} {v : Value} (fits : t.Fits) (read : t.toValue? = some v) :
    v.All Value.IsProper := by
  -- Doubled keys of an object are put into one map, so its keys are distinct whatever the text
  -- says.
  induction t using partInduction generalizing v with
  | null => cases read; exact (Value.all_null).mpr ⟨trivial, trivial⟩
  | bool b => cases read; exact (Value.all_bool b).mpr ⟨trivial, trivial⟩
  | number n => cases read; exact (Value.all_number n).mpr ⟨trivial, fits⟩
  | string s => cases read; exact (Value.all_string s).mpr ⟨trivial, trivial⟩
  | array ts ih =>
      obtain ⟨vs, items, rfl⟩ := Option.map_eq_some_iff.mp read
      refine (Value.all_array vs).mpr ⟨⟨trivial, trivial⟩, ?_⟩
      intro v member
      obtain ⟨t, among, found⟩ := exists_of_itemValues? items v member
      exact ih t among (fits_array.mp fits t among) found
  | object ms ih =>
      obtain ⟨vs, members, rfl⟩ := Option.map_eq_some_iff.mp read
      refine (Value.all_object _).mpr ⟨⟨Entries.nodup_keys_ofMembers vs, trivial⟩, ?_⟩
      intro v member
      obtain ⟨m, among, found⟩ :=
        exists_of_memberValues? members v (Entries.mem_of_mem_ofMembers member)
      exact ih m among (fits_object.mp fits m among) found
  | illegible => cases read

end Tree

end Json

end ScreenFlow
