import ScreenFlow.Proofs.Codec.Ensures
import ScreenFlow.Proofs.Codec.Plain
import ScreenFlow.Proofs.Json.Levels

/-!
# Tidying what is read

Many trees are read as one value: keys stand in any order or twice, records are spelled as arrays,
names as keys. A codec is tidy when writing what it has read from a tree gives a proper value with
no more levels than the tree. Records are tidy by what their fields ensure, and tagged unions by
what their variants do with parts whose own elements are tidy.
-/

namespace ScreenFlow

open ScreenFlow.Json ScreenFlow.Codec

namespace Codec

variable {α : Type}

/-- What is read from a tree is written as a proper value with no more levels. -/
class Tidy (c : Codec α) : Prop where
  within_encode : ∀ {room origin t a}, Tree.Within room t → c.decode origin t = .ok a →
    (c.encode a).Within room

/-! ## Scalars -/

instance : Tidy text := ⟨fun _ _ => ⟨Plain.all_encode _, Nat.zero_le _⟩⟩

instance : Tidy boolean := ⟨fun _ _ => ⟨Plain.all_encode _, Nat.zero_le _⟩⟩

instance : Tidy word32 := ⟨fun _ _ => ⟨Plain.all_encode _, Nat.zero_le _⟩⟩

instance : Tidy float := ⟨fun _ _ => ⟨Plain.all_encode _, Nat.zero_le _⟩⟩

instance (all : List α) (name : α → String) : Tidy (choice all name) :=
  ⟨fun _ _ => ⟨Plain.all_encode _, Nat.zero_le _⟩⟩

instance : Tidy value where
  within_encode within read := Tree.within_of_toValue? within (decode_value_eq_ok_iff.mp read)

/-! ## Lists, maps and unset values -/

instance (c : Codec α) [Tidy c] : Tidy (list c) where
  within_encode {room origin t as} within read := by
    cases t with
    | array ts =>
        obtain ⟨less, rfl, each⟩ := Tree.within_array within
        apply Value.within_array
        rw [List.forall_mem_map]
        intro a member
        have items := decodeItems_eq_ok_iff.mp read
        obtain ⟨t, among, itemRead⟩ := exists_left_of_forall₂ items a member
        exact Tidy.within_encode (each t among) itemRead
    | null | bool | number | string | object | illegible => cases read

/-- Of doubled keys one is left, at its first place and with its last value. -/
instance (c : Codec α) [Tidy c] : Tidy (entries c) where
  within_encode {room origin t es} within read := by
    cases t with
    | object ms =>
        obtain ⟨less, rfl, each⟩ := Tree.within_object within
        obtain ⟨fs, members, rfl⟩ := map_eq_ok_iff.mp read
        rw [decodeMembers_eq_ok_iff] at members
        refine Value.within_object ?_ ?_
        · rw [Entries.keys, List.map_map]
          exact Entries.nodup_keys_ofMembers fs
        · rw [List.forall_mem_map]
          intro e member
          obtain ⟨m, among, -, valueRead⟩ := exists_left_of_forall₂ members e
            (Entries.mem_of_mem_ofMembers member)
          exact Tidy.within_encode (each m among) valueRead
    | null | bool | number | string | array | illegible => cases read

theorem within_encode_of_orNull {c : Codec α} [Tidy c] {room : Nat} {origin : Origin} {t : Tree}
    {o : Option α} (within : t.Within room) (read : c.orNull.decode origin t = .ok o) :
    ∀ a ∈ o, (c.encode a).Within room := by
  cases t with
  | null =>
      cases read
      intro a member
      cases member
  | bool | number | string | array | object | illegible =>
      obtain ⟨a, inner, rfl⟩ := map_eq_ok_iff.mp read
      intro b member
      cases member
      exact Tidy.within_encode within inner

end Codec

/-! ## Fields -/

namespace Codec

variable {ρ α β : Type}

namespace Fields

/-- The values of members are proper and have at most so many levels. -/
def MembersWithin (room : Nat) (ms : List (String × Value)) : Prop := ∀ m ∈ ms, m.2.Within room

@[simp]
theorem membersWithin_nil (room : Nat) : MembersWithin room [] := List.forall_mem_nil _

@[simp]
theorem membersWithin_cons (room : Nat) (m : String × Value) (ms : List (String × Value)) :
    MembersWithin room (m :: ms) ↔ m.2.Within room ∧ MembersWithin room ms :=
  List.forall_mem_cons

@[simp]
theorem membersWithin_append (room : Nat) (ms ns : List (String × Value)) :
    MembersWithin room (ms ++ ns) ↔ MembersWithin room ms ∧ MembersWithin room ns :=
  List.forall_mem_append

@[simp]
theorem membersWithin_map_toList (room : Nat) (name : String) (c : Codec α) (a : Option α) :
    MembersWithin room (a.toList.map fun b => (name, c.encode b)) ↔
      ∀ b ∈ a, (c.encode b).Within room := by
  rw [MembersWithin, List.forall_mem_map]
  exact forall_congr' fun b => imp_congr_left Option.mem_toList

instance (room : Nat) (name : String) (c : Codec α) (get : ρ → α) [Codec.Tidy c] :
    Ensures (Tree.Within room) (required name c get) fun Q =>
      ∀ a, (c.encode a).Within room → Q a where
  of_read {Q} left _ _ a all read := by
    refine left a (of_read_single (P := fun a => (c.encode a).Within room)
      Codec.Tidy.within_encode ?_ ?_ all read)
    · intro b member
      cases member
    · intro b member
      cases member

instance (room : Nat) (name : String) (c : Codec α) (get : ρ → Option α) [Codec.Tidy c] :
    Ensures (Tree.Within room) (optional name c get) fun Q =>
      ∀ o, (∀ a ∈ o, (c.encode a).Within room) → Q o where
  of_read {Q} left _ _ o all read := by
    have unset : ∀ o ∈ some (none : Option α), ∀ a ∈ o, (c.encode a).Within room := by
      intro o member a inside
      cases member
      cases inside
    exact left o (of_read_single (P := fun o : Option α => ∀ a ∈ o, (c.encode a).Within room)
      Codec.within_encode_of_orNull unset unset all read)

/-- What is read from parts is written as members with no more levels than the parts. -/
class Tidy (fs : Fields Tree α α) : Prop where
  within_write : ∀ {room r i a}, Source.All (Tree.Within room) r.source → fs.read r i = .ok a →
    MembersWithin room (fs.write a)

/-- A record is tidy if its members are within what its fields ensure. -/
theorem Tidy.of_leaves {fs : Fields Tree α α} {leaves : Nat → (α → Prop) → Prop}
    [∀ room, Ensures (Tree.Within room) fs (leaves room)]
    (left : ∀ room, leaves room fun a => MembersWithin room (fs.write a)) : Tidy fs where
  within_write {room _ _ _} all read :=
    Ensures.of_read (Q := fun a => MembersWithin room (fs.write a)) (left room) all read

/-- The object of a tidy record has one level more than its members. -/
theorem within_object_of_readAll {fs : Fields Tree α α} [LawfulRecord fs] [Tidy fs] {room : Nat}
    {record : String} {origin : Origin} {source : Source Tree} {a : α}
    (all : source.All (Tree.Within room)) (read : fs.readAll record origin source = .ok a) :
    (Value.object (fs.write a)).Within (room + 1) :=
  Value.within_object (LawfulRecord.nodup_keys fs a)
    (Tidy.within_write all (read_of_readAll read))

/-- A record is tidy however it is spelled. -/
instance (fs : Fields Tree α α) (record : String) [LawfulRecord fs] [Tidy fs] :
    Codec.Tidy (fs.codec record) where
  within_encode {room origin t a} within read := by
    cases t with
    | object ms =>
        obtain ⟨less, rfl, each⟩ := Tree.within_object within
        have all : (Source.members ms).All (Tree.Within less) := each
        exact within_object_of_readAll all read
    | array ts =>
        obtain ⟨less, rfl, each⟩ := Tree.within_array within
        have all : (Source.items ts).All (Tree.Within less) := each
        exact within_object_of_readAll all read
    | null | bool | number | string | illegible => cases read

end Fields

/-! ## Tagged unions -/

/-- A part with at most so many levels whose elements are written within them. -/
structure Slot.Within (encode : α → Value) (room : Nat) (s : Slot α) : Prop where
  tree : s.tree.Within room
  branch : ∀ {as}, s.branch () = .ok as → (Value.array (as.map encode)).Within room
  cases : ∀ {cs}, s.cases () = .ok cs →
    (Value.object (cs.map fun c => (c.1, .array (c.2.map encode)))).Within room

section

variable (encode : α → Value) (room : Nat)

instance (fs : Fields Tree ρ β) (leaves : (β → Prop) → Prop)
    [Fields.Ensures (Tree.Within room) fs leaves] :
    Fields.Ensures (Slot.Within encode room) (fs.comap Slot.tree) leaves where
  of_read left r i a all read := by
    have trees : (r.source.map Slot.tree).All (Tree.Within room) :=
      all.map fun _ within => within.tree
    have inner : fs.read { r with source := r.source.map Slot.tree } i = .ok a := read
    exact Fields.Ensures.of_read left trees inner

instance (name : String) (get : ρ → Value) :
    Fields.Ensures (Slot.Within encode room) (Fields.requiredBranch name get) fun R =>
      ∀ as : List α, (Value.array (as.map encode)).Within room → R as where
  of_read {R} left _ _ as all read := by
    refine left as (Fields.of_read_single
      (P := fun as => (Value.array (as.map encode)).Within room)
      (fun within read => Slot.Within.branch within read) ?_ ?_ all read)
    · intro as member
      cases member
    · intro as member
      cases member

instance (name : String) (get : ρ → Option Value) :
    Fields.Ensures (Slot.Within encode room) (Fields.optionalBranch name get) fun R =>
      ∀ o : Option (List α), (∀ as ∈ o, (Value.array (as.map encode)).Within room) → R o where
  of_read {R} left _ _ o all read := by
    have unset : ∀ o ∈ some (none : Option (List α)), ∀ as ∈ o,
        (Value.array (as.map encode)).Within room := by
      intro o member as inside
      cases member
      cases inside
    refine left o (Fields.of_read_single (P := fun o : Option (List α) =>
      ∀ as ∈ o, (Value.array (as.map encode)).Within room) ?_ unset unset all read)
    intro _ s o within decoded
    split at decoded
    · cases decoded
      intro as member
      cases member
    · obtain ⟨as, branch, rfl⟩ := Codec.map_eq_ok_iff.mp decoded
      intro bs member
      cases member
      exact within.branch branch

instance (name : String) (get : ρ → Value) :
    Fields.Ensures (Slot.Within encode room) (Fields.requiredCases name get) fun R =>
      ∀ cs : Entries (List α),
        (Value.object (cs.map fun c => (c.1, .array (c.2.map encode)))).Within room → R cs where
  of_read {R} left _ _ cs all read := by
    refine left cs (Fields.of_read_single (P := fun cs : Entries (List α) =>
      (Value.object (cs.map fun c => (c.1, .array (c.2.map encode)))).Within room)
      (fun within read => Slot.Within.cases within read) ?_ ?_ all read)
    · intro cs member
      cases member
    · intro cs member
      cases member

end

/-- What a variant reads from parts is written with at most one level more than the parts. -/
def Variant.Tidy (encode : α → Value) (v : Variant α) : Prop :=
  ∀ ⦃room source a⦄, Source.All (Slot.Within encode room) source → v.read source = .ok a →
    (encode a).Within (room + 1)

theorem Variant.tidy_ofRecord {encode : α → Value} (tag record : String) {fs : Fields Tree β β}
    {make : β → α} [Fields.Tidy fs]
    (left : ∀ room b, Fields.MembersWithin room (fs.write b) →
      (encode (make b)).Within (room + 1)) :
    (Variant.ofRecord tag record fs make).Tidy encode := by
  intro room source a all read
  obtain ⟨b, inner, rfl⟩ := Codec.map_eq_ok_iff.mp read
  have trees : (source.map Slot.tree).All (Tree.Within room) := all.map fun _ within => within.tree
  exact left room b (Fields.Tidy.within_write trees (Fields.read_of_readAll inner))

theorem Variant.tidy_ofParts {encode : α → Value} (tag record : String) {fs : Fields (Slot α) ρ β}
    {make : β → α} {leaves : Nat → (β → Prop) → Prop}
    [∀ room, Fields.Ensures (Slot.Within encode room) fs (leaves room)]
    (left : ∀ room, leaves room fun b => (encode (make b)).Within (room + 1)) :
    (Variant.ofParts tag record fs make).Tidy encode := by
  intro room source a all read
  obtain ⟨b, inner, rfl⟩ := Codec.map_eq_ok_iff.mp read
  exact Fields.Ensures.of_readAll (Q := fun b => (encode (make b)).Within (room + 1)) (left room)
    all inner

/-- If all variants are tidy, so is every element that is read, with all in its branches. -/
theorem TaggedUnion.within_of_decode {u : TaggedUnion α} {encode : α → Value}
    (tidy : ∀ v ∈ u.variants, v.Tidy encode) {room : Nat} {t : Tree} (within : t.Within room) :
    (u.slot t).Within encode room ∧
      ∀ {origin a}, u.decode origin t = .ok a → (encode a).Within room := by
  -- As for conditions on elements, a tree is known as a part and as an element at once; here the
  -- room shrinks from a tree to its parts.
  induction t using Tree.partsInduction generalizing room with
  | step t ih =>
      refine ⟨⟨within, ?_, ?_⟩, ?_⟩
      · intro as read
        obtain ⟨ts, rfl, items⟩ := exists_of_decodeBranch read
        obtain ⟨less, rfl, each⟩ := Tree.within_array within
        apply Value.within_array
        rw [List.forall_mem_map]
        intro a member
        obtain ⟨part, among, itemRead⟩ := items a member
        exact (ih part among (each part among)).2 itemRead
      · intro cs read
        obtain ⟨ms, rfl, distinct, branches⟩ := exists_of_decodeCases read
        obtain ⟨less, rfl, each⟩ := Tree.within_object within
        refine Value.within_object ?_ ?_
        · rw [Entries.keys, List.map_map]
          exact distinct
        · rw [List.forall_mem_map]
          intro c member
          obtain ⟨m, among, branchRead⟩ := branches c member
          exact (ih m.2 (List.mem_map_of_mem among) (each m among)).1.branch branchRead
      · intro origin a read
        obtain ⟨some, v, known, source, chosen, slots⟩ := exists_of_decode read
        obtain ⟨less, rfl, each⟩ := within.of_parts some
        refine tidy v known (slots.imp ?_) chosen
        rintro _ ⟨part, among, rfl⟩
        exact (ih part among (each part among)).1

end Codec

/-! ## Shared forms -/

instance : Codec.Tidy ActionName.codec := inferInstanceAs (Codec.Tidy (.choice _ _))

instance : Codec.Tidy FontWeight.codec := inferInstanceAs (Codec.Tidy (.choice _ _))

instance : Codec.Tidy InputType.codec := inferInstanceAs (Codec.Tidy (.choice _ _))

instance : Codec.Tidy CalendarMode.codec := inferInstanceAs (Codec.Tidy (.choice _ _))

instance : Codec.Tidy ScaleType.codec := inferInstanceAs (Codec.Tidy (.choice _ _))

instance : Codec.Tidy PhotoSource.codec := inferInstanceAs (Codec.Tidy (.choice _ _))

instance : Codec.Tidy MediaSize.codec := inferInstanceAs (Codec.Tidy (.choice _ _))

instance : Codec.Fields.Tidy SelectOption.fields := by
  unfold SelectOption.fields
  exact .of_leaves fun room => by simp +contextual

instance : Codec.Tidy DataSource.optionsCodec :=
  inferInstanceAs (Codec.Tidy (.list (SelectOption.fields.codec "SelectOption")))

instance : Codec.Tidy DataSource.codec where
  within_encode {room origin t source} within read := by
    cases t with
    | string name =>
        cases read
        exact ⟨Codec.Plain.all_encode _, Nat.zero_le room⟩
    | null | bool | number | array | object | illegible =>
        unfold DataSource.codec at read
        dsimp only at read
        split at read
        · rename_i list options
          cases read
          exact Codec.Tidy.within_encode (c := DataSource.optionsCodec) within options
        · cases read

end ScreenFlow
