import ScreenFlow.Proofs.Codec.Records

/-!
# Codecs that look at every level

Beyond the greatest depth a tree is illegible. A codec is strict when it cannot read what it wrote
from a tree in which some level of it is missing: it skips no part of what it writes.
-/

namespace ScreenFlow

open ScreenFlow.Json ScreenFlow.Codec

namespace Codec

variable {α : Type}

/-- What is written is read only where there is room for all of it. -/
class Strict (c : Codec α) : Prop where
  depth_le : ∀ {origin room a b}, c.decode origin ((c.encode a).treeWithin room) = .ok b →
    (c.encode a).depth ≤ room

instance : Strict text := ⟨fun _ => Nat.zero_le _⟩

instance : Strict boolean := ⟨fun _ => Nat.zero_le _⟩

instance (c : Codec α) [Strict c] : Strict (list c) where
  depth_le {origin room as bs} read := by
    -- Without room the whole list is illegible; otherwise its items have one level less.
    cases room with
    | zero => cases read
    | succ room =>
        have items : decodeItems (c.decode origin)
            (Value.itemTreesWithin room (as.map c.encode)) = .ok bs := read
        rw [Value.itemTreesWithin_eq, List.map_map, decodeItems_eq_ok_iff,
          List.forall₂_map_left_iff] at items
        rw [list, Value.depth_array_le_iff, List.forall_mem_map]
        intro a member
        obtain ⟨b, -, itemRead⟩ := exists_right_of_forall₂ items a member
        exact Strict.depth_le itemRead

instance (c : Codec α) [Strict c] : Strict (entries c) where
  depth_le {origin room es fs} read := by
    cases room with
    | zero => cases read
    | succ room =>
        have whole : (decodeMembers (c.decode origin) (Value.memberTreesWithin room
            (es.map fun e => (e.1, c.encode e.2)))).map Entries.ofMembers = .ok fs := read
        obtain ⟨bs, members, -⟩ := map_eq_ok_iff.mp whole
        rw [Value.memberTreesWithin_eq, List.map_map, decodeMembers_eq_ok_iff,
          List.forall₂_map_left_iff] at members
        rw [entries, Value.depth_object_le_iff, List.forall_mem_map]
        intro e member
        obtain ⟨b, -, -, valueRead⟩ := exists_right_of_forall₂ members e member
        exact Strict.depth_le valueRead

/-- What is not null stays so however much room there is. -/
theorem treeWithin_ne_null {v : Value} (notNull : v ≠ .null) (room : Nat) :
    v.treeWithin room ≠ .null := by
  cases v with
  | null => exact absurd rfl notNull
  | bool | number | string | array | object => cases room <;> exact Tree.noConfusion

theorem exists_of_decode_orNull {c : Codec α} {origin : Origin} {t : Tree} {a : Option α}
    (notNull : t ≠ .null) (read : c.orNull.decode origin t = .ok a) :
    ∃ b, c.decode origin t = .ok b := by
  have plain : c.orNull.decode origin t = (c.decode origin t).map some := by
    cases t with
    | null => exact absurd rfl notNull
    | bool | number | string | array | object | illegible => rfl
  rw [plain] at read
  obtain ⟨b, inner, -⟩ := map_eq_ok_iff.mp read
  exact ⟨b, inner⟩

end Codec

namespace Codec.Fields

variable {ρ α β : Type}

/-- Fields are read only where there is room for all that is written for them. -/
class Strict (fs : Fields Tree ρ α) : Prop where
  depth_le : fs.names.Nodup → ∀ {r : ρ} {room : Nat} {origin : Origin} {record : String}
    {count : Nat} {ms : List (String × Tree)} {i : Nat} {a : α},
      Agree (Value.treeWithin room) fs.names (fs.write r) ms →
        fs.read ⟨origin, .members ms, record, count⟩ i = .ok a →
          ∀ m ∈ fs.write r, m.2.depth ≤ room

instance (f : α → β) (fs : Fields Tree ρ α) [Strict fs] : Strict (f <$> fs) where
  depth_le distinct r room origin record count ms i a agree read := by
    have names : fs.names.Nodup := distinct
    obtain ⟨b, inner, -⟩ := Codec.map_eq_ok_iff.mp read
    exact Strict.depth_le names agree inner

instance (fs : Fields Tree ρ (α → β)) (gs : Fields Tree ρ α) (f : ρ → α → β) (g : ρ → α)
    [Lawful fs f] [Lawful gs g] [Strict fs] [Strict gs] : Strict (fs <*> gs) where
  depth_le distinct r room origin record count ms i a agree read := by
    obtain ⟨first, second⟩ := agree_seq fs gs distinct agree
    obtain ⟨_, _, firstRead, secondRead, -⟩ := pair_eq_ok_iff.mp read
    intro m member
    rcases List.mem_append.mp member with member | member
    · exact Strict.depth_le (List.nodup_append.mp distinct).1 first firstRead m member
    · exact Strict.depth_le (List.nodup_append.mp distinct).2.1 second secondRead m member

/-- A field whose key is there is read only if its tree is. -/
theorem exists_of_read_single {name : String} {write : ρ → Option Value}
    {whenMissing whenShort : Option α} {decode : Origin → Tree → Except Fault α} {origin : Origin}
    {ms : List (String × Tree)} {record : String} {count i : Nat} {t : Tree} {a : α}
    (present : (locate name ms).map Prod.snd = some t)
    (read : (single name write whenMissing whenShort decode).read
      ⟨origin, .members ms, record, count⟩ i = .ok a) : decode origin t = .ok a := by
  obtain ⟨⟨place, s⟩, found, rfl⟩ := Option.map_eq_some_iff.mp present
  simp only [single, found] at read
  cases h : decode origin s with
  | ok => rw [h] at read; cases read; rfl
  | error => rw [h] at read; cases read

instance (name : String) (c : Codec α) (get : ρ → α) [Codec.Strict c] :
    Strict (required name c get) where
  depth_le _ r room origin record count ms i a agree read := by
    have present := agree name List.mem_cons_self
    rw [show (required name c get).write r = [(name, c.encode (get r))] from rfl, get?_singleton]
      at present
    exact List.forall_mem_singleton.mpr
      (Codec.Strict.depth_le (exists_of_read_single present read))

instance (name : String) (c : Codec α) (get : ρ → Option α) [Codec.Strict c] [Codec.Solid c] :
    Strict (optional name c get) where
  depth_le _ r room origin record count ms i a agree read := by
    have stands := agree name List.mem_cons_self
    rw [write_optional] at stands ⊢
    -- Nothing is written for an unset field. A set one is not null, so its own codec read it.
    cases h : get r with
    | none => exact List.forall_mem_nil _
    | some set =>
        rw [h, Option.toList_some, List.map_singleton, get?_singleton] at stands
        obtain ⟨b, plain⟩ := Codec.exists_of_decode_orNull
          (Codec.treeWithin_ne_null (Codec.Solid.encode_ne_null set) room)
          (exists_of_read_single stands read)
        exact List.forall_mem_singleton.mpr (Codec.Strict.depth_le plain)

instance (fs : Fields Tree α α) (record : String) [law : LawfulRecord fs] [Strict fs] :
    Codec.Strict (fs.codec record) where
  depth_le {origin room a b} read := by
    -- The record itself takes one level, its members have what is left.
    cases room with
    | zero => cases read
    | succ room =>
        have members : fs.readAll record origin
            (.members ((fs.write a).map fun m => (m.1, m.2.treeWithin room))) = .ok b := by
          rw [← Value.memberTreesWithin_eq]
          exact read
        have fits := Strict.depth_le law.names_nodup
          (agree_map (Value.treeWithin room) fs.names (fs.write a)) (read_of_readAll members)
        exact Value.depth_object_le_iff.mpr fits

end Codec.Fields

end ScreenFlow
