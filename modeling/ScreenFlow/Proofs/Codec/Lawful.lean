import Mathlib.Data.List.Forall2
import ScreenFlow.Codec.Fields
import ScreenFlow.Proofs.Entries
import ScreenFlow.Proofs.Json.Parts

/-!
# Codecs that read what they write

A codec is lawful when it reads the tree of every value that it writes, provided that no key stands
twice in an object of it. Lists, maps and records of lawful codecs are lawful. A record is put
together from its fields one at a time, so its law is found by instance search along its fields.
-/

namespace ScreenFlow

open ScreenFlow.Json ScreenFlow.Codec

namespace Codec

variable {α : Type}

/-- Reading the tree of what is written gives the same back. -/
class Lawful (c : Codec α) : Prop where
  decode_encode : ∀ origin a, (c.encode a).All Value.HasDistinctKeys →
    c.decode origin (c.encode a).toTree = .ok a

/-- What is written is never null, so null can stand for an unset value. -/
class Solid (c : Codec α) : Prop where
  encode_ne_null : ∀ a, c.encode a ≠ .null

/-! ## Scalars -/

instance : Lawful text := ⟨fun _ _ _ => rfl⟩

instance : Solid text := ⟨fun _ => Value.noConfusion⟩

instance : Lawful boolean := ⟨fun _ _ _ => rfl⟩

instance : Solid boolean := ⟨fun _ => Value.noConfusion⟩

theorem natBelow_of_lt {bound n : Nat} (expected : Expected) (small : n < bound) :
    natBelow bound expected (.number (.integer n)) = .ok n := by
  have fits : (0 : Int) ≤ n ∧ (n : Int) < bound := ⟨Int.natCast_nonneg n, Int.ofNat_lt.mpr small⟩
  rw [natBelow, if_pos fits, Int.toNat_natCast]

instance : Lawful word32 where
  decode_encode origin n _ := by
    simp only [word32, Value.toTree]
    rw [natBelow_of_lt .word32 n.toNat_lt_size, Except.map, UInt32.ofNat_toNat]

instance : Solid word32 := ⟨fun _ => Value.noConfusion⟩

instance : Lawful word64 where
  decode_encode origin n _ := by
    simp only [word64, Value.toTree]
    rw [natBelow_of_lt .word64 n.toNat_lt_size, Except.map, UInt64.ofNat_toNat]

instance : Solid word64 := ⟨fun _ => Value.noConfusion⟩

instance : Lawful float := ⟨fun _ _ _ => rfl⟩

instance : Solid float := ⟨fun _ => Value.noConfusion⟩

end Codec

namespace Json.Tree

/-- The tree of a value without doubled keys stands for that value. -/
theorem toValue?_toTree {v : Value} (distinct : v.All Value.HasDistinctKeys) :
    v.toTree.toValue? = some v := by
  induction v using Value.partInduction with
  | null | bool | number | string => rfl
  | array vs ih =>
      rw [Value.all_array] at distinct
      have items : itemValues? (vs.map Value.toTree) = some vs := by
        rw [itemValues?_eq_some_iff, List.forall₂_map_left_iff, List.forall₂_same]
        exact fun v member => ih v member (distinct.2 v member)
      rw [Value.toTree, Value.itemTrees_eq, toValue?, items]
      rfl
  | object ms ih =>
      rw [Value.all_object] at distinct
      have members : memberValues? (ms.map fun m => (m.1, m.2.toTree)) = some ms := by
        rw [memberValues?_eq_some_iff, List.forall₂_map_left_iff, List.forall₂_same]
        exact fun m member => ⟨rfl, ih m member (distinct.2 m member)⟩
      rw [Value.toTree, Value.memberTrees_eq, toValue?, members, Option.map_some,
        Entries.ofMembers_eq_self distinct.1]

end Json.Tree

namespace Codec

variable {α : Type}

/-- Any JSON value is read from exactly the trees that stand for it. -/
theorem decode_value_eq_ok_iff {origin : Origin} {t : Tree} {v : Value} :
    value.decode origin t = .ok v ↔ t.toValue? = some v := by
  unfold value
  dsimp only
  cases t.toValue? with
  | some w => rw [Except.ok.injEq, Option.some.injEq]
  | none =>
      constructor
      · intro impossible
        cases impossible
      · intro impossible
        cases impossible

instance : Lawful value where
  decode_encode _ _ distinct := decode_value_eq_ok_iff.mpr (Tree.toValue?_toTree distinct)

/-! ## Parts one after the other -/

/-- A computation in two steps succeeds exactly when both do. -/
theorem bind_eq_ok_iff {ε β γ : Type} {x : Except ε β} {f : β → Except ε γ} {c : γ} :
    x >>= f = .ok c ↔ ∃ b, x = .ok b ∧ f b = .ok c := by
  cases x with
  | ok b =>
      constructor
      · intro read
        exact ⟨b, rfl, read⟩
      · rintro ⟨_, ⟨⟩, read⟩
        exact read
  | error =>
      constructor
      · intro impossible
        cases impossible
      · rintro ⟨_, ⟨⟩, _⟩

/-- A computation whose result is changed succeeds exactly when it does. -/
theorem map_eq_ok_iff {ε β γ : Type} {x : Except ε β} {f : β → γ} {c : γ} :
    x.map f = .ok c ↔ ∃ b, x = .ok b ∧ f b = c := by
  cases x with
  | ok b =>
      constructor
      · intro read
        cases read
        exact ⟨b, rfl, rfl⟩
      · rintro ⟨_, ⟨⟩, rfl⟩
        rfl
  | error =>
      constructor
      · intro impossible
        cases impossible
      · rintro ⟨_, ⟨⟩, _⟩

/-- A computation whose fault is changed succeeds exactly when it does. -/
theorem mapError_eq_ok_iff {ε ε' β : Type} {x : Except ε β} {f : ε → ε'} {b : β} :
    x.mapError f = .ok b ↔ x = .ok b := by
  cases x with
  | ok => rw [Except.mapError, Except.ok.injEq, Except.ok.injEq]
  | error =>
      constructor
      · intro impossible
        cases impossible
      · intro impossible
        cases impossible

/-- A computation whose result is there succeeds with it. -/
theorem eq_ok_of_toOption {ε β : Type} {x : Except ε β} {b : β} (some : x.toOption = .some b) :
    x = .ok b := by
  cases x with
  | ok => cases some; rfl
  | error => cases some

/-- Items are read as a list exactly when each is read as the item in its place. -/
theorem decodeItems_eq_ok_iff {decode : Tree → Except Fault α} {ts : List Tree} {as : List α} :
    decodeItems decode ts = .ok as ↔ List.Forall₂ (fun t a => decode t = .ok a) ts as := by
  induction ts generalizing as with
  | nil => rw [decodeItems, List.forall₂_nil_left_iff, Except.ok.injEq, eq_comm]
  | cons t ts ih =>
      simp only [decodeItems, bind_eq_ok_iff, ih, List.forall₂_cons_left_iff]
      simp only [pure, Except.pure, Except.ok.injEq, eq_comm (b := as), exists_and_left]

/-- Members are read under their keys exactly when each is read as the one in its place. -/
theorem decodeMembers_eq_ok_iff {decode : Tree → Except Fault α} {ms : List (String × Tree)}
    {es : List (String × α)} : decodeMembers decode ms = .ok es ↔
      List.Forall₂ (fun m e => e.1 = m.1 ∧ decode m.2 = .ok e.2) ms es := by
  induction ms generalizing es with
  | nil => rw [decodeMembers, List.forall₂_nil_left_iff, Except.ok.injEq, eq_comm]
  | cons m ms ih =>
      simp only [decodeMembers, bind_eq_ok_iff, ih, List.forall₂_cons_left_iff]
      simp only [pure, Except.pure, Except.ok.injEq, eq_comm (b := es)]
      constructor
      · rintro ⟨a, read, fs, others, rfl⟩
        exact ⟨(m.1, a), fs, ⟨rfl, read⟩, others, rfl⟩
      · rintro ⟨⟨_, a⟩, fs, ⟨rfl, read⟩, others, rfl⟩
        exact ⟨a, read, fs, others, rfl⟩

/-! ## Lists, maps and unset values -/

instance (c : Codec α) [Lawful c] : Lawful (list c) where
  decode_encode origin as distinct := by
    have each : ∀ v ∈ as.map c.encode, v.All Value.HasDistinctKeys :=
      ((Value.all_array _).mp distinct).2
    rw [List.forall_mem_map] at each
    show decodeItems (c.decode origin) (Value.itemTrees (as.map c.encode)) = .ok as
    rw [Value.itemTrees_eq, List.map_map, decodeItems_eq_ok_iff, List.forall₂_map_left_iff,
      List.forall₂_same]
    intro a member
    exact Lawful.decode_encode origin a (each a member)

instance (c : Codec α) : Solid (list c) := ⟨fun _ => Value.noConfusion⟩

instance (c : Codec α) [Lawful c] : Lawful (entries c) where
  decode_encode origin es distinct := by
    obtain ⟨keys, each⟩ := (Value.all_object _).mp distinct
    rw [List.forall_mem_map] at each
    have members : decodeMembers (c.decode origin)
        (Value.memberTrees (es.map fun e => (e.1, c.encode e.2))) = .ok es := by
      rw [Value.memberTrees_eq, List.map_map, decodeMembers_eq_ok_iff, List.forall₂_map_left_iff,
        List.forall₂_same]
      intro e member
      exact ⟨rfl, Lawful.decode_encode origin e.2 (each e member)⟩
    have distinctKeys : (Entries.keys es).Nodup := by
      rw [Value.HasDistinctKeys, Entries.keys, List.map_map] at keys
      exact keys
    show (decodeMembers (c.decode origin)
      (Value.memberTrees (es.map fun e => (e.1, c.encode e.2)))).map Entries.ofMembers = .ok es
    rw [members]
    exact congrArg Except.ok (Entries.ofMembers_eq_self distinctKeys)

instance (c : Codec α) : Solid (entries c) := ⟨fun _ => Value.noConfusion⟩

/-- A tree that is not null is read as a value that is set. -/
theorem decode_orNull {c : Codec α} {origin : Origin} {v : Value} (notNull : v ≠ .null) :
    c.orNull.decode origin v.toTree = (c.decode origin v.toTree).map some := by
  cases v with
  | null => exact absurd rfl notNull
  | bool | number | string | array | object => rfl

instance (c : Codec α) [Lawful c] [Solid c] : Lawful c.orNull where
  decode_encode origin a distinct := by
    cases a with
    | none => rfl
    | some a =>
        show c.orNull.decode origin (c.encode a).toTree = _
        rw [decode_orNull (Solid.encode_ne_null a), Lawful.decode_encode origin a distinct]
        rfl

/-! ## Names -/

/-- A list of alternatives under distinct names reads every one of them. -/
theorem choice_lawful {all : List α} {name : α → String}
    (reads : ∀ a, (all.find? fun b => name b == name a) = some a) : Lawful (choice all name) where
  decode_encode origin a _ := by
    show named all name (name a) = .ok a
    rw [named, reads a]

instance (all : List α) (name : α → String) : Solid (choice all name) :=
  ⟨fun _ => Value.noConfusion⟩

end Codec

end ScreenFlow
