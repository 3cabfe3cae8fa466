import Mathlib.Data.List.Nodup
import ScreenFlow.Proofs.Codec.Lawful

/-!
# Records that read what they write

Some fields of a record are lawful when reading members that say the same as the written ones gives
the view of the record that those fields make up. Fields with different names do not disturb each
other, so lawful fields put one after the other are lawful, and a record whose fields give back the
record itself has a lawful codec.
-/

namespace ScreenFlow.Codec

open ScreenFlow.Json

/-- Read members have for the given names the trees of written members, and no others. -/
def Agree (tree : Value → Tree) (names : List String) (written : List (String × Value))
    (read : List (String × Tree)) : Prop :=
  ∀ name ∈ names, (Fields.locate name read).map Prod.snd = (Entries.get? written name).map tree

namespace Fields

variable {ρ α β : Type}

/-! ## What is written -/

section

variable {σ : Type}

@[simp]
theorem write_map (f : α → β) (fs : Fields σ ρ α) (r : ρ) : (f <$> fs).write r = fs.write r := rfl

@[simp]
theorem write_seq (fs : Fields σ ρ (α → β)) (gs : Fields σ ρ α) (r : ρ) :
    (fs <*> gs).write r = fs.write r ++ gs.write r := rfl

@[simp]
theorem write_required (name : String) (c : Codec α) (get : ρ → α) (r : ρ) :
    (required name c get).write r = [(name, c.encode (get r))] := rfl

@[simp]
theorem write_defaulted (name : String) (default : α) (c : Codec α) (get : ρ → α) (r : ρ) :
    (defaulted name default c get).write r = [(name, c.encode (get r))] := rfl

@[simp]
theorem write_nullable (name : String) (c : Codec α) (get : ρ → Option α) (r : ρ) :
    (nullable name c get).write r = [(name, c.orNull.encode (get r))] := rfl

/-- A field that may be left out is written where it is set. -/
@[simp]
theorem write_optional (name : String) (c : Codec α) (get : ρ → Option α) (r : ρ) :
    (optional name c get).write r = (get r).toList.map fun a => (name, c.encode a) := by
  unfold optional single
  dsimp only
  cases get r <;> rfl

end

/-! ## The law of fields -/

/-- Reading what is written gives back a view of the record. -/
class Lawful (fs : Fields Tree ρ α) (view : outParam (ρ → α)) : Prop where
  keys : ∀ r, (Entries.keys (fs.write r)).Sublist fs.names
  read_write : fs.names.Nodup → ∀ r, (∀ m ∈ fs.write r, m.2.All Value.HasDistinctKeys) →
    ∀ (origin : Origin) (record : String) (count : Nat) (ms : List (String × Tree)) (i : Nat),
      Agree Value.toTree fs.names (fs.write r) ms →
        fs.read ⟨origin, .members ms, record, count⟩ i = .ok (view r)

/-! ## Putting fields together -/

/-- A pair is read exactly from two readings. -/
theorem pair_eq_ok_iff {γ : Type} {f : α → β → γ} {p : Placed α} {q : Placed β} {c : γ} :
    Placed.pair f p q = .ok c ↔ ∃ a b, p = .ok a ∧ q = .ok b ∧ f a b = c := by
  cases p with
  | ok a =>
      cases q with
      | ok b =>
          constructor
          · intro read
            cases read
            exact ⟨a, b, rfl, rfl, rfl⟩
          · rintro ⟨_, _, ⟨⟩, ⟨⟩, rfl⟩
            rfl
      | error =>
          constructor
          · intro impossible
            cases impossible
          · rintro ⟨_, _, _, ⟨⟩, _⟩
  | error e =>
      constructor
      · intro read
        cases q with
        | ok => cases read
        | error e' =>
            rw [Placed.pair] at read
            split at read <;> cases read
      · rintro ⟨_, _, ⟨⟩, _⟩

instance (f : α → β) (fs : Fields Tree ρ α) (view : ρ → α) [Lawful fs view] :
    Lawful (f <$> fs) fun r => f (view r) where
  keys r := by
    show (Entries.keys (fs.write r)).Sublist fs.names
    exact Lawful.keys r
  read_write distinct r sound origin record count ms i agree := by
    have names : fs.names.Nodup := distinct
    have read : fs.read ⟨origin, .members ms, record, count⟩ i = .ok (view r) :=
      Lawful.read_write names r sound origin record count ms i agree
    show (fs.read ⟨origin, .members ms, record, count⟩ i).map f = _
    rw [read]
    rfl

/-- A name is looked up among the first members if they have it. -/
theorem get?_append_of_mem {written more : List (String × Value)} {name : String}
    (other : name ∉ Entries.keys more) :
    Entries.get? (written ++ more) name = Entries.get? written name := by
  rw [Entries.get?_append, Entries.get?_eq_none_iff.mpr other, Option.or_none]

/-- A name is looked up among the last members if the first ones do not have it. -/
theorem get?_append_of_not_mem {written more : List (String × Value)} {name : String}
    (other : name ∉ Entries.keys written) :
    Entries.get? (written ++ more) name = Entries.get? more name := by
  rw [Entries.get?_append, Entries.get?_eq_none_iff.mpr other, Option.none_or]

/-- Members that agree with fields put together agree with each of them. -/
theorem agree_seq (fs : Fields Tree ρ (α → β)) (gs : Fields Tree ρ α) {f : ρ → α → β} {g : ρ → α}
    [Lawful fs f] [Lawful gs g] (distinct : (fs <*> gs).names.Nodup) {tree : Value → Tree} {r : ρ}
    {ms : List (String × Tree)} (agree : Agree tree (fs <*> gs).names ((fs <*> gs).write r) ms) :
    Agree tree fs.names (fs.write r) ms ∧ Agree tree gs.names (gs.write r) ms := by
  -- A key that one of them writes is a name of its own, so the other one does not look for it.
  have apart : ∀ name ∈ fs.names, name ∉ gs.names := fun name first second =>
    (List.nodup_append.mp distinct).2.2 name first name second rfl
  constructor
  · intro name member
    rw [agree name (List.mem_append_left _ member)]
    exact congrArg _ (get?_append_of_mem fun key =>
      apart name member ((Lawful.keys r).subset key))
  · intro name member
    rw [agree name (List.mem_append_right _ member)]
    exact congrArg _ (get?_append_of_not_mem fun key =>
      apart name ((Lawful.keys r).subset key) member)

instance (fs : Fields Tree ρ (α → β)) (gs : Fields Tree ρ α) (f : ρ → α → β) (g : ρ → α)
    [Lawful fs f] [Lawful gs g] : Lawful (fs <*> gs) fun r => f r (g r) where
  keys r := by
    show (Entries.keys (fs.write r ++ gs.write r)).Sublist (fs.names ++ gs.names)
    rw [Entries.keys, List.map_append]
    exact (Lawful.keys r).append (Lawful.keys r)
  read_write distinct r sound origin record count ms i agree := by
    obtain ⟨first, second⟩ := agree_seq fs gs distinct agree
    have soundFirst : ∀ m ∈ fs.write r, m.2.All Value.HasDistinctKeys :=
      fun m member => sound m (List.mem_append_left _ member)
    have soundSecond : ∀ m ∈ gs.write r, m.2.All Value.HasDistinctKeys :=
      fun m member => sound m (List.mem_append_right _ member)
    show Placed.pair (fun f a => f a) (fs.read _ i) (gs.read _ (i + fs.names.length)) = _
    rw [Lawful.read_write (List.nodup_append.mp distinct).1 r soundFirst origin record count ms i
      first, Lawful.read_write (List.nodup_append.mp distinct).2.1 r soundSecond origin record count
      ms _ second]
    rfl

/-! ## Single fields -/

/-- A field whose key is there is read from its tree. -/
theorem read_single_of_present {name : String} {write : ρ → Option Value}
    {whenMissing whenShort : Option α} {decode : Origin → Tree → Except Fault α} {origin : Origin}
    {ms : List (String × Tree)} {record : String} {count i : Nat} {t : Tree} {a : α}
    (present : (locate name ms).map Prod.snd = some t) (reads : decode origin t = .ok a) :
    (single name write whenMissing whenShort decode).read
      ⟨origin, .members ms, record, count⟩ i = .ok a := by
  obtain ⟨⟨place, s⟩, found, rfl⟩ := Option.map_eq_some_iff.mp present
  simp only [single, found, reads]
  rfl

/-- A field whose key is not there has its default. -/
theorem read_single_of_missing {name : String} {write : ρ → Option Value}
    {whenShort : Option α} {decode : Origin → Tree → Except Fault α} {origin : Origin}
    {ms : List (String × Tree)} {record : String} {count i : Nat} {a : α}
    (missing : (locate name ms).map Prod.snd = none) :
    (single name write (some a) whenShort decode).read
      ⟨origin, .members ms, record, count⟩ i = .ok a := by
  rw [Option.map_eq_none_iff] at missing
  simp only [single, missing]

theorem get?_singleton (name : String) (v : Value) :
    Entries.get? [(name, v)] name = some v := by
  simp [Entries.get?]

/-- A field that is always written is lawful if its codec is, whatever it is when it is missing. -/
theorem lawful_of_written (name : String) (c : Codec α) (get : ρ → α)
    (whenMissing whenShort : Option α) [Codec.Lawful c] :
    Lawful (single name (fun r => some (c.encode (get r))) whenMissing whenShort c.decode) get where
  keys _ := List.Sublist.refl _
  read_write _ r sound origin record count ms i agree := by
    have present := agree name List.mem_cons_self
    have written := sound (name, c.encode (get r)) List.mem_cons_self
    have single : (single name (fun r => some (c.encode (get r))) whenMissing whenShort
        c.decode).write r = [(name, c.encode (get r))] := rfl
    rw [single, get?_singleton] at present
    exact read_single_of_present present (Codec.Lawful.decode_encode origin (get r) written)

instance (name : String) (c : Codec α) (get : ρ → α) [Codec.Lawful c] :
    Lawful (required name c get) get :=
  lawful_of_written name c get none none

instance (name : String) (default : α) (c : Codec α) (get : ρ → α) [Codec.Lawful c] :
    Lawful (defaulted name default c get) get :=
  lawful_of_written name c get (some default) (some default)

instance (name : String) (c : Codec α) (get : ρ → Option α) [Codec.Lawful c.orNull] :
    Lawful (nullable name c get) get :=
  lawful_of_written name c.orNull get (some none) none

instance (name : String) (c : Codec α) (get : ρ → Option α) [Codec.Lawful c] [Codec.Solid c] :
    Lawful (optional name c get) get where
  keys r := by
    rw [write_optional]
    cases get r with
    | none => exact List.nil_sublist _
    | some a => exact List.Sublist.refl _
  read_write _ r sound origin record count ms i agree := by
    have stands := agree name List.mem_cons_self
    rw [write_optional] at stands sound
    cases h : get r with
    | none =>
        rw [h] at stands
        exact read_single_of_missing stands
    | some a =>
        rw [h, Option.toList_some, List.map_singleton] at stands sound
        have written := sound (name, c.encode a) List.mem_cons_self
        rw [get?_singleton] at stands
        refine read_single_of_present stands ?_
        rw [Codec.decode_orNull (Codec.Solid.encode_ne_null a),
          Codec.Lawful.decode_encode origin a written]
        rfl

/-! ## Whole records -/

/-- A record is read only if its fields are. -/
theorem read_of_readAll {σ : Type} {fs : Fields σ ρ α} {record : String} {origin : Origin}
    {source : Source σ} {a : α} (read : fs.readAll record origin source = .ok a) :
    fs.read ⟨origin, source, record, fs.names.length⟩ 0 = .ok a := by
  -- Members may still be refused for a repeat, items for their number; both only after reading.
  cases source with
  | members ms =>
      simp only [readAll] at read
      split at read
      · rename_i outcome
        cases read
        exact outcome
      · cases read
      · cases read
      · split at read <;> cases read
  | items xs =>
      simp only [readAll] at read
      split at read
      · rename_i outcome
        split at read
        · cases read
          exact outcome
        · cases read
      · cases read

/-- The fields give back the record itself, under distinct names. -/
class LawfulRecord (fs : Fields Tree α α) : Prop where
  names_nodup : fs.names.Nodup
  lawful : Lawful fs fun a => a

/-- No known name is repeated exactly if the known names among the keys are distinct and new. -/
theorem firstRepeat_eq_none_iff {σ : Type} {names seen : List String} {ms : List (String × σ)} :
    firstRepeat names seen ms = none ↔ ((ms.map Prod.fst).filter (· ∈ names)).Nodup ∧
      ∀ m ∈ ms, m.1 ∈ names → m.1 ∉ seen := by
  -- The names seen so far grow with every member, and the later ones must be new to them.
  induction ms generalizing seen with
  | nil => exact ⟨fun _ => ⟨List.nodup_nil, List.forall_mem_nil _⟩, fun _ => rfl⟩
  | cons m ms ih =>
      have later : firstRepeat names (m.1 :: seen) ms = none ↔
          ((ms.map Prod.fst).filter (· ∈ names)).Nodup ∧
            (∀ m' ∈ ms, m'.1 ∈ names → m'.1 ≠ m.1) ∧ ∀ m' ∈ ms, m'.1 ∈ names → m'.1 ∉ seen := by
        simp only [ih, List.mem_cons, not_or, imp_and, forall_and]
      rw [firstRepeat, List.map_cons, List.filter_cons, List.forall_mem_cons]
      by_cases known : m.1 ∈ names
      · have apart : m.1 ∉ (ms.map Prod.fst).filter (· ∈ names) ↔
            ∀ m' ∈ ms, m'.1 ∈ names → m'.1 ≠ m.1 := by
          rw [List.mem_filter, List.mem_map]
          constructor
          · rintro absent m' member - same
            exact absent ⟨⟨m', member, same⟩, decide_eq_true known⟩
          · rintro apart ⟨⟨m', member, same⟩, -⟩
            exact apart m' member (same ▸ known) same
        rw [if_pos (decide_eq_true known), List.nodup_cons, apart]
        by_cases before : m.1 ∈ seen
        · rw [if_pos ⟨known, before⟩]
          exact iff_of_false nofun fun both => both.2.1 known before
        · rw [if_neg fun both => before both.2, Option.map_eq_none_iff, later]
          tauto
      · have apart : ∀ m' ∈ ms, m'.1 ∈ names → m'.1 ≠ m.1 := fun m' _ isKnown same =>
          known (same ▸ isKnown)
        rw [if_neg fun both => known both.1, if_neg fun shown => known (of_decide_eq_true shown),
          Option.map_eq_none_iff, later]
        tauto

theorem firstRepeat_eq_none {σ : Type} {names seen : List String} {ms : List (String × σ)}
    (distinct : (ms.map Prod.fst).Nodup) (fresh : ∀ m ∈ ms, m.1 ∉ seen) :
    firstRepeat names seen ms = none :=
  firstRepeat_eq_none_iff.mpr ⟨distinct.filter _, fun m member _ => fresh m member⟩

/-- A record is read from members exactly if its fields are and none of their names stands twice. -/
theorem readAll_members_eq_ok_iff {σ : Type} {fs : Fields σ ρ α} {record : String}
    {origin : Origin} {ms : List (String × σ)} {a : α} :
    fs.readAll record origin (.members ms) = .ok a ↔
      (∀ name ∈ fs.names, (ms.map Prod.fst).count name ≤ 1) ∧
        fs.read ⟨origin, .members ms, record, fs.names.length⟩ 0 = .ok a := by
  have single : (∀ name ∈ fs.names, (ms.map Prod.fst).count name ≤ 1) ↔
      firstRepeat fs.names [] ms = none := by
    rw [firstRepeat_eq_none_iff, List.nodup_iff_count_le_one,
      and_iff_left fun m _ _ => List.not_mem_nil]
    refine forall_congr' fun name => ?_
    by_cases known : name ∈ fs.names
    · have same : ((ms.map Prod.fst).filter (· ∈ fs.names)).count name =
          (ms.map Prod.fst).count name := List.count_filter (decide_eq_true known)
      rw [same, imp_iff_right known]
    · have absent : name ∉ (ms.map Prod.fst).filter (· ∈ fs.names) := fun member =>
        known (of_decide_eq_true (List.mem_filter.mp member).2)
      rw [List.count_eq_zero_of_not_mem absent]
      exact iff_of_true (fun member => absurd member known) (Nat.zero_le 1)
  rw [single]
  refine ⟨fun read => ⟨?_, read_of_readAll read⟩, fun both => by simp only [readAll, both]⟩
  simp only [readAll] at read
  split at read
  · assumption
  · cases read
  · cases read
  · split at read <;> cases read

/-- The first member under a name is what that key has. -/
theorem map_snd_locate {σ : Type} (name : String) (ms : List (String × σ)) :
    (locate name ms).map Prod.snd = Entries.get? ms name := by
  induction ms with
  | nil => rfl
  | cons m ms ih =>
      rw [locate, Entries.get?, List.find?_cons]
      by_cases same : m.1 = name
      · rw [if_pos same, beq_iff_eq.mpr same]
        rfl
      · rw [if_neg same, beq_false_of_ne same, Option.map_map]
        exact ih

/-- A field is read from the first member under its name, and is its default without one. -/
theorem read_single_eq_ok_iff {σ : Type} {name : String} {write : ρ → Option Value}
    {whenMissing whenShort : Option α} {decode : Origin → σ → Except Fault α} {origin : Origin}
    {ms : List (String × σ)} {record : String} {count i : Nat} {a : α} :
    (single name write whenMissing whenShort decode).read ⟨origin, .members ms, record, count⟩ i =
        .ok a ↔
      match Entries.get? ms name with
      | some s => decode origin s = .ok a
      | none => whenMissing = some a := by
  rw [← map_snd_locate]
  simp only [single]
  cases locate name ms with
  | some found => exact Codec.mapError_eq_ok_iff
  | none => cases whenMissing <;> simp

/-- The trees of written members agree with these. -/
theorem agree_map (tree : Value → Tree) (names : List String) (written : List (String × Value)) :
    Agree tree names written (written.map fun m => (m.1, tree m.2)) := by
  intro name _
  rw [map_snd_locate, Entries.get?_map_values]

/-- A lawful record is written under its names. -/
theorem LawfulRecord.keys_sublist (fs : Fields Tree α α) [law : LawfulRecord fs] (a : α) :
    (Entries.keys (fs.write a)).Sublist fs.names :=
  law.lawful.keys a

theorem LawfulRecord.nodup_keys (fs : Fields Tree α α) [law : LawfulRecord fs] (a : α) :
    (Entries.keys (fs.write a)).Nodup :=
  (keys_sublist fs a).nodup law.names_nodup

/-- A lawful record is read from its members. -/
theorem LawfulRecord.readAll_write (fs : Fields Tree α α) [law : LawfulRecord fs] (record : String)
    (origin : Origin) (a : α) (sound : ∀ m ∈ fs.write a, m.2.All Value.HasDistinctKeys) :
    fs.readAll record origin (.members ((fs.write a).map fun m => (m.1, m.2.toTree))) = .ok a := by
  have read := law.lawful.read_write law.names_nodup a sound origin record fs.names.length _ 0
    (agree_map Value.toTree fs.names (fs.write a))
  have keys : (((fs.write a).map fun m => (m.1, m.2.toTree)).map Prod.fst).Nodup := by
    rw [List.map_map]
    exact nodup_keys fs a
  have unrepeated : firstRepeat fs.names []
      ((fs.write a).map fun m => (m.1, m.2.toTree)) = none :=
    firstRepeat_eq_none keys fun m _ => List.not_mem_nil
  simp only [readAll, read, unrepeated]

instance (fs : Fields Tree α α) (record : String) [LawfulRecord fs] :
    Codec.Lawful (fs.codec record) where
  decode_encode origin a distinct := by
    have members := ((Value.all_object _).mp distinct).2
    have read := LawfulRecord.readAll_write fs record origin a members
    rw [← Value.memberTrees_eq] at read
    exact read

instance (fs : Fields Tree α α) (record : String) : Codec.Solid (fs.codec record) :=
  ⟨fun _ => Value.noConfusion⟩

end Fields

end ScreenFlow.Codec
