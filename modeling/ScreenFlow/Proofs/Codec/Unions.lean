import ScreenFlow.Codec.TaggedUnion
import ScreenFlow.Proofs.Codec.Records

/-!
# Tagged unions that read what they write

The first member of a tagged object names the variant and the others are its fields. A variant that
holds a lawful record reads what the record writes; branches and cases are read element by element.
-/

namespace ScreenFlow.Codec

open ScreenFlow.Json

variable {α β : Type}

namespace TaggedUnion

/-- The part of an object that a tree is. -/
def slot (u : TaggedUnion α) (t : Tree) : Slot α :=
  ⟨t, fun _ => u.decodeBranch t, fun _ => u.decodeCases t⟩

theorem memberSlots_eq (u : TaggedUnion α) (ms : List (String × Tree)) :
    u.memberSlots ms = ms.map fun m => (m.1, u.slot m.2) := by
  induction ms with
  | nil => rfl
  | cons m ms ih => rw [memberSlots, ih, List.map_cons]; rfl

/-- Members behind a tag are read by its variant. -/
theorem readMembers_cons {u : TaggedUnion α} {origin : Origin} {tag : Slot α} {v : Variant α}
    {slots : List (String × Slot α)} (others : ∀ m ∈ slots, m.1 ≠ tagKey)
    (known : u.variant? origin tag.tree = .ok v) :
    u.readMembers origin ((tagKey, tag) :: slots) = v.read (.members slots) := by
  have tags : (((tagKey, tag) :: slots).filter fun m => m.1 == tagKey) = [(tagKey, tag)] := by
    rw [List.filter_cons_of_pos (by exact beq_self_eq_true _), List.filter_eq_nil_iff.mpr]
    intro m member same
    exact others m member (eq_of_beq same)
  have fields : (((tagKey, tag) :: slots).filter fun m => m.1 != tagKey) = slots := by
    rw [List.filter_cons_of_neg (by simp), List.filter_eq_self]
    intro m member
    exact bne_iff_ne.mpr (others m member)
  rw [readMembers, tags]
  simp only [known, fields, List.isEmpty_nil, if_true, bind, Except.bind]

/-- The elements of a branch are read like the items of a list. -/
theorem decodeList_eq (u : TaggedUnion α) (ts : List Tree) :
    u.decodeList ts = Codec.decodeItems (u.decode .held) ts := by
  induction ts with
  | nil => rfl
  | cons t ts ih => rw [decodeList, ih, Codec.decodeItems]

/-- The branches of cases are read like members. -/
theorem decodeNamedBranches_eq (u : TaggedUnion α) (ms : List (String × Tree)) :
    u.decodeNamedBranches ms = Codec.decodeMembers u.decodeBranch ms := by
  induction ms with
  | nil => rfl
  | cons m ms ih => rw [decodeNamedBranches, ih, Codec.decodeMembers]

/-- Elements that are each read from a tree are read from the list of these trees. -/
theorem decodeList_map {u : TaggedUnion α} {as : List α} {tree : α → Tree}
    (each : ∀ a ∈ as, u.decode .held (tree a) = .ok a) : u.decodeList (as.map tree) = .ok as := by
  rw [decodeList_eq, Codec.decodeItems_eq_ok_iff, List.forall₂_map_left_iff, List.forall₂_same]
  exact each

/-- Cases under distinct names whose elements are each read from a tree are read from these. -/
theorem decodeCases_map {u : TaggedUnion α} {cases : List (String × List α)} {tree : α → Tree}
    (distinct : (Entries.keys cases).Nodup)
    (each : ∀ branch ∈ cases, ∀ a ∈ branch.2, u.decode .held (tree a) = .ok a) :
    u.decodeCases (.object (cases.map fun branch => (branch.1, .array (branch.2.map tree)))) =
      .ok cases := by
  have named : u.decodeNamedBranches
      (cases.map fun branch => (branch.1, .array (branch.2.map tree))) = .ok cases := by
    rw [decodeNamedBranches_eq, Codec.decodeMembers_eq_ok_iff, List.forall₂_map_left_iff,
      List.forall₂_same]
    intro branch member
    exact ⟨rfl, decodeList_map (each branch member)⟩
  rw [decodeCases, named]
  exact congrArg Except.ok (Entries.ofMembers_eq_self distinct)

/-- The tree of a tagged object is read by the variant of its tag. -/
theorem decode_tagged {u : TaggedUnion α} {origin : Origin} {tag : String} {v : Variant α}
    {members : List (String × Value)} (known : u.variant? origin (.string tag) = .ok v)
    (distinct : (Entries.keys ((tagKey, .string tag) :: members)).Nodup) :
    u.decode origin (Value.object ((tagKey, .string tag) :: members)).toTree =
      v.read (.members (u.memberSlots (Value.memberTrees members))) := by
  have others : ∀ m ∈ u.memberSlots (Value.memberTrees members), m.1 ≠ tagKey := by
    rw [memberSlots_eq, Value.memberTrees_eq, List.map_map, List.forall_mem_map]
    intro m member same
    exact (List.nodup_cons.mp distinct).1 (List.mem_map.mpr ⟨m, member, same⟩)
  exact readMembers_cons others known

/-- The tree of values that are each read back is read as a branch. -/
theorem decodeBranch_toTree {u : TaggedUnion α} {as : List α} {encode : α → Value}
    (each : ∀ a ∈ as, u.decode .held (encode a).toTree = .ok a) :
    u.decodeBranch (Value.array (as.map encode)).toTree = .ok as := by
  rw [Value.toTree, Value.itemTrees_eq, List.map_map, decodeBranch]
  exact decodeList_map each

/-- The tree of cases whose values are each read back is read as these cases. -/
theorem decodeCases_toTree {u : TaggedUnion α} {cases : List (String × List α)} {encode : α → Value}
    (distinct : (Entries.keys (cases.map fun c => (c.1, Value.array (c.2.map encode)))).Nodup)
    (each : ∀ c ∈ cases, ∀ a ∈ c.2, u.decode .held (encode a).toTree = .ok a) :
    u.decodeCases (Value.object (cases.map fun c => (c.1, .array (c.2.map encode)))).toTree =
      .ok cases := by
  have keys : (Entries.keys cases).Nodup := by
    rw [Entries.keys, List.map_map] at distinct
    exact distinct
  have trees : (Value.object (cases.map fun c => (c.1, .array (c.2.map encode)))).toTree =
      .object (cases.map fun c => (c.1, .array (c.2.map fun a => (encode a).toTree))) := by
    rw [Value.toTree, Value.memberTrees_eq, List.map_map]
    simp only [Function.comp_def, Value.toTree, Value.itemTrees_eq, List.map_map]
  rw [trees]
  exact decodeCases_map keys each

/-- The tree of a value is legible, so all of it is read. -/
theorem decodeWhole_toTree (u : TaggedUnion α) (origin : Origin) (v : Value) :
    u.decodeWhole origin v.toTree = u.decode origin v.toTree := by
  rw [decodeWhole, Tree.isLegible_toTree, if_pos rfl]

end TaggedUnion

/-- A variant that holds a lawful record is read from what the record writes. -/
theorem Variant.read_ofRecord (u : TaggedUnion α) (tag record : String) (fs : Fields Tree β β)
    [Fields.LawfulRecord fs] (make : β → α) (b : β)
    (sound : ∀ m ∈ fs.write b, m.2.All Value.HasDistinctKeys) :
    (Variant.ofRecord tag record fs make).read
      (.members (u.memberSlots (Value.memberTrees (fs.write b)))) = .ok (make b) := by
  have trees : (Source.members (u.memberSlots (Value.memberTrees (fs.write b)))).map Slot.tree =
      .members ((fs.write b).map fun m => (m.1, m.2.toTree)) := by
    rw [TaggedUnion.memberSlots_eq, Value.memberTrees_eq, Source.map, List.map_map, List.map_map]
    rfl
  show (fs.readAll record .held ((Source.members _).map Slot.tree)).map make = _
  rw [trees, Fields.LawfulRecord.readAll_write fs record .held b sound]
  rfl

end ScreenFlow.Codec
