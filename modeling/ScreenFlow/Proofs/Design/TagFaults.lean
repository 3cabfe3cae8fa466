import ScreenFlow.Proofs.Codec.Failing
import ScreenFlow.Proofs.Design.TagTrees

/-!
# Faults of tags

Reading an element can fail because of a tag or because of anything else, and the check of kinds
keeps the two apart: where all values that stand for elements name kinds, no fault of reading them
is one of a tag. Attributes have names of their own to choose from, keys of their own and no unions,
so none of their faults looks like one of a tag either.
-/

namespace ScreenFlow

open ScreenFlow.Codec ScreenFlow.Json

namespace Codec

/-- Whether a union or its tag was expected. -/
def Expected.IsTag : Expected → Prop
  | .union _ | .tag | .tagIndex _ => True
  | _ => False

/-- Whether the tag of an element is at fault: it is missing, there twice, of the wrong type or no
kind, or there is nothing that could have a tag. -/
def Fault.IsOfTag : Fault → Prop
  | .wrongType _ expected | .wrongValue _ expected => expected.IsTag
  | .missingField name | .duplicateField name => name = tagKey
  | .unknownVariant _ known => known = Design.Kind.all.map Design.Kind.name
  | .malformed | .wrongLength _ _ | .noVariant _ => False

theorem not_isOfTag_mismatch (t : Tree) {expected : Expected} (plain : ¬expected.IsTag) :
    ¬(mismatch t expected).IsOfTag := by
  unfold mismatch
  cases found? t with
  | none => exact id
  | some found => exact plain

/-! ## Codecs -/

variable {α : Type}

/-- No fault of a codec is one of a tag. -/
class Untagged (c : Codec α) : Prop where
  not_isOfTag : ∀ {origin t fault}, c.decode origin t = .error fault → ¬fault.IsOfTag

instance : Untagged text where
  not_isOfTag {origin t fault} failed := by
    cases t with
    | string s => cases failed
    | null | bool | number | array | object | illegible =>
        cases failed
        exact not_isOfTag_mismatch _ id

instance : Untagged boolean where
  not_isOfTag {origin t fault} failed := by
    cases t with
    | bool b => cases failed
    | null | string | number | array | object | illegible =>
        cases failed
        exact not_isOfTag_mismatch _ id

instance : Untagged word32 where
  not_isOfTag {origin t fault} failed := by
    have below := map_eq_error failed
    unfold natBelow at below
    split at below
    · split at below
      · cases below
      · cases below
        exact id
    · cases below
      exact not_isOfTag_mismatch _ id

instance : Untagged float where
  not_isOfTag {origin t fault} failed := by
    unfold float at failed
    dsimp only at failed
    split at failed
    · cases failed
    · cases failed
    · cases failed
      exact not_isOfTag_mismatch _ id

instance : Untagged value where
  not_isOfTag {origin t fault} failed := by
    unfold value at failed
    dsimp only at failed
    split at failed
    · cases failed
    · cases failed
      exact id

instance (c : Codec α) [Untagged c] : Untagged (list c) where
  not_isOfTag {origin t fault} failed := by
    cases t with
    | array ts =>
        obtain ⟨t, -, refused⟩ := exists_of_decodeItems_error failed
        exact Untagged.not_isOfTag refused
    | null | bool | number | string | object | illegible =>
        cases failed
        exact not_isOfTag_mismatch _ id

instance (c : Codec α) [Untagged c] : Untagged (entries c) where
  not_isOfTag {origin t fault} failed := by
    cases t with
    | object ms =>
        obtain ⟨m, -, refused⟩ := exists_of_decodeMembers_error (map_eq_error failed)
        exact Untagged.not_isOfTag refused
    | null | bool | number | string | array | illegible =>
        cases failed
        exact not_isOfTag_mismatch _ id

instance (c : Codec α) [Untagged c] : Untagged c.orNull where
  not_isOfTag {origin t fault} failed := by
    cases t with
    | null => cases failed
    | bool | number | string | array | object | illegible =>
        exact Untagged.not_isOfTag (map_eq_error failed)

/-- Names to choose from are no tags if they are not those of all kinds. -/
theorem untagged_choice {all : List α} {name : α → String}
    (others : all.map name ≠ Design.Kind.all.map Design.Kind.name) :
    Untagged (choice all name) where
  not_isOfTag {origin t fault} failed := by
    have chosen {s : String} (failed : named all name s = .error fault) : ¬fault.IsOfTag := by
      unfold named at failed
      split at failed
      · cases failed
      · cases failed
        exact others
    have nothing {origin : Origin} {t : Tree} (failed : decodeNothing origin t = .error fault) :
        ¬fault.IsOfTag := by
      unfold decodeNothing at failed
      split at failed
      · cases failed
      · split at failed
        · cases failed
        · cases failed
          exact not_isOfTag_mismatch _ id
      · cases failed
        exact not_isOfTag_mismatch _ id
    unfold choice at failed
    dsimp only at failed
    split at failed
    · exact chosen failed
    · rcases bind_eq_error failed with failed | ⟨a, -, failed⟩
      · exact chosen failed
      · rcases bind_eq_error failed with failed | ⟨_, -, failed⟩
        · exact nothing failed
        · cases failed
    · rcases bind_eq_error failed with failed | ⟨a, -, failed⟩
      · exact chosen failed
      · rcases bind_eq_error failed with failed | ⟨_, -, failed⟩
        · exact nothing failed
        · cases failed
          exact id
    · cases failed
      exact id
    · cases failed
      exact not_isOfTag_mismatch _ id
    · cases failed
      exact id

end Codec

/-! ## Records -/

namespace Codec.Fields

variable {σ ρ α β : Type}

/-- No fault of fields is one of a tag, unless one of them is the tag itself. -/
class Untagged (fs : Fields Tree ρ α) : Prop where
  not_isOfTag : tagKey ∉ fs.names → ∀ {r : Reading Tree} {i : Nat} {e : Nat × Fault},
    fs.read r i = .error e → ¬e.2.IsOfTag

instance (f : α → β) (fs : Fields Tree ρ α) [Untagged fs] : Untagged (f <$> fs) where
  not_isOfTag others {r i e} failed := by
    have names : tagKey ∉ fs.names := others
    exact Untagged.not_isOfTag names (map_eq_error failed)

instance (fs : Fields Tree ρ (α → β)) (gs : Fields Tree ρ α) [Untagged fs] [Untagged gs] :
    Untagged (fs <*> gs) where
  not_isOfTag others {r i e} failed := by
    have names : tagKey ∉ fs.names ++ gs.names := others
    rw [List.mem_append, not_or] at names
    rcases pair_eq_error failed with failed | failed
    · exact Untagged.not_isOfTag names.1 failed
    · exact Untagged.not_isOfTag names.2 failed

theorem untagged_single {name : String} {write : ρ → Option Value}
    {whenMissing whenShort : Option α} {decode : Origin → Tree → Except Fault α}
    (decodes : ∀ {origin t fault}, decode origin t = .error fault → ¬fault.IsOfTag) :
    Untagged (single name write whenMissing whenShort decode) where
  not_isOfTag others {r i e} failed := by
    have other : name ≠ tagKey := fun same => others (same ▸ List.mem_singleton_self name)
    rcases read_single_eq_error failed with ⟨s, -, refused⟩ | missing | short
    · exact decodes refused
    · rw [missing]
      exact other
    · rw [short]
      exact id

instance (name : String) (c : Codec α) (get : ρ → α) [Codec.Untagged c] :
    Untagged (required name c get) :=
  untagged_single Codec.Untagged.not_isOfTag

instance (name : String) (default : α) (c : Codec α) (get : ρ → α) [Codec.Untagged c] :
    Untagged (defaulted name default c get) :=
  untagged_single Codec.Untagged.not_isOfTag

instance (name : String) (c : Codec α) (get : ρ → Option α) [Codec.Untagged c] :
    Untagged (nullable name c get) :=
  untagged_single (Codec.Untagged.not_isOfTag (c := c.orNull))

instance (name : String) (c : Codec α) (get : ρ → Option α) [Codec.Untagged c] :
    Untagged (optional name c get) :=
  untagged_single (Codec.Untagged.not_isOfTag (c := c.orNull))

/-- It does not matter which part of a source a field is read from. -/
theorem not_isOfTag_comap (fs : Fields Tree ρ α) [Untagged fs] (others : tagKey ∉ fs.names)
    {f : σ → Tree} {r : Reading σ} {i : Nat} {e : Nat × Fault}
    (failed : (fs.comap f).read r i = .error e) : ¬e.2.IsOfTag :=
  Untagged.not_isOfTag others failed

/-- No field of a record is a tag, and no fault of reading one is. -/
class UntaggedRecord (fs : Fields Tree ρ α) : Prop where
  names : tagKey ∉ fs.names
  fields : Untagged fs

/-- A record is refused for a field that has no fault of a tag, or for its shape. -/
theorem not_isOfTag_readAll {fs : Fields σ ρ α} {record : String} {origin : Origin}
    {source : Source σ} {fault : Fault} (others : tagKey ∉ fs.names)
    (fields : ∀ {place}, fs.read ⟨origin, source, record, fs.names.length⟩ 0 =
      .error (place, fault) → ¬fault.IsOfTag)
    (failed : fs.readAll record origin source = .error fault) : ¬fault.IsOfTag := by
  rcases readAll_eq_error failed with ⟨place, failed⟩ | ⟨name, among, rfl⟩ | ⟨length, rfl⟩
  · exact fields failed
  · intro same
    exact others (same ▸ among)
  · cases origin <;> exact id

theorem UntaggedRecord.not_isOfTag {fs : Fields Tree ρ α} [law : UntaggedRecord fs]
    {record : String} {origin : Origin} {source : Source Tree} {fault : Fault}
    (failed : fs.readAll record origin source = .error fault) : ¬fault.IsOfTag :=
  not_isOfTag_readAll law.names (law.fields.not_isOfTag law.names) failed

instance (fs : Fields Tree α α) (record : String) [UntaggedRecord fs] :
    Codec.Untagged (fs.codec record) where
  not_isOfTag {origin t fault} failed := by
    cases t with
    | object ms =>
        have members : fs.readAll record origin (.members ms) = .error fault := failed
        exact UntaggedRecord.not_isOfTag members
    | array ts =>
        have items : fs.readAll record origin (.items ts) = .error fault := failed
        exact UntaggedRecord.not_isOfTag items
    | null | bool | number | string | illegible =>
        cases failed
        exact not_isOfTag_mismatch _ id

end Codec.Fields

/-! ## Shared forms -/

instance : Codec.Untagged ActionName.codec := Codec.untagged_choice (by decide)

instance : Codec.Untagged FontWeight.codec := Codec.untagged_choice (by decide)

instance : Codec.Untagged InputType.codec := Codec.untagged_choice (by decide)

instance : Codec.Untagged CalendarMode.codec := Codec.untagged_choice (by decide)

instance : Codec.Untagged ScaleType.codec := Codec.untagged_choice (by decide)

instance : Codec.Untagged PhotoSource.codec := Codec.untagged_choice (by decide)

instance : Codec.Untagged MediaSize.codec := Codec.untagged_choice (by decide)

/-- Whatever is wrong with options, the fault is one and the same. -/
instance : Codec.Untagged DataSource.codec where
  not_isOfTag {origin t fault} failed := by
    unfold DataSource.codec at failed
    dsimp only at failed
    split at failed
    · cases failed
    · split at failed
      · cases failed
      · cases failed
        exact id

end ScreenFlow

namespace ScreenFlow.Design

open ScreenFlow.Codec ScreenFlow.Codec.Fields ScreenFlow.Json

instance : UntaggedRecord Action.fields := ⟨by decide, by unfold Action.fields; infer_instance⟩

instance : Codec.Untagged Action.codec := inferInstanceAs (Codec.Untagged (Fields.codec _ _))

/-! ## Attributes of widgets -/

instance : UntaggedRecord Heading.fields := ⟨by decide, by unfold Heading.fields; infer_instance⟩

instance : UntaggedRecord BodyText.fields := ⟨by decide, by unfold BodyText.fields; infer_instance⟩

instance : UntaggedRecord RichText.fields := ⟨by decide, by unfold RichText.fields; infer_instance⟩

instance : UntaggedRecord TextInput.fields :=
  ⟨by decide, by unfold TextInput.fields; infer_instance⟩

instance : UntaggedRecord TextArea.fields := ⟨by decide, by unfold TextArea.fields; infer_instance⟩

instance : UntaggedRecord Selector.fields := ⟨by decide, by unfold Selector.fields; infer_instance⟩

instance : UntaggedRecord OptIn.fields := ⟨by decide, by unfold OptIn.fields; infer_instance⟩

instance : UntaggedRecord EmbeddedLink.fields :=
  ⟨by decide, by unfold EmbeddedLink.fields; infer_instance⟩

instance : UntaggedRecord DatePicker.fields :=
  ⟨by decide, by unfold DatePicker.fields; infer_instance⟩

instance : UntaggedRecord CalendarPicker.fields :=
  ⟨by decide, by unfold CalendarPicker.fields; infer_instance⟩

instance : UntaggedRecord Image.fields := ⟨by decide, by unfold Image.fields; infer_instance⟩

instance : UntaggedRecord CarouselImage.fields :=
  ⟨by decide, by unfold CarouselImage.fields; infer_instance⟩

instance : UntaggedRecord ImageCarousel.fields :=
  ⟨by decide, by unfold ImageCarousel.fields; infer_instance⟩

instance : UntaggedRecord PhotoPicker.fields :=
  ⟨by decide, by unfold PhotoPicker.fields; infer_instance⟩

instance : UntaggedRecord DocumentPicker.fields :=
  ⟨by decide, by unfold DocumentPicker.fields; infer_instance⟩

instance : UntaggedRecord NavigationItem.fields :=
  ⟨by decide, by unfold NavigationItem.fields; infer_instance⟩

instance : UntaggedRecord NavigationList.fields :=
  ⟨by decide, by unfold NavigationList.fields; infer_instance⟩

instance : UntaggedRecord Footer.fields := ⟨by decide, by unfold Footer.fields; infer_instance⟩

/-! ## Elements -/

namespace Element

/-- No fault of reading a value is one of a tag. -/
abbrev FailsElsewhere (v : Value) : Prop :=
  ∀ ⦃origin fault⦄, union.decode origin v.toTree = .error fault → ¬fault.IsOfTag

/-- A branch is refused for an element in it, or because it is none. -/
theorem not_isOfTag_decodeBranch {v : Value} (inside : ∀ w ∈ v.items, FailsElsewhere w)
    {fault : Fault} (failed : union.decodeBranch v.toTree = .error fault) : ¬fault.IsOfTag := by
  cases v with
  | array vs =>
      have items : union.decodeList (Value.itemTrees vs) = .error fault := failed
      rw [TaggedUnion.decodeList_eq, Value.itemTrees_eq] at items
      obtain ⟨t, among, refused⟩ := exists_of_decodeItems_error items
      obtain ⟨w, member, rfl⟩ := List.mem_map.mp among
      exact inside w member refused
  | null | bool | number | string | object =>
      cases failed
      exact not_isOfTag_mismatch _ id

/-- Cases are refused for a branch of them, or because they are none. -/
theorem not_isOfTag_decodeCases {v : Value}
    (inside : ∀ m ∈ v.members, ∀ w ∈ m.2.items, FailsElsewhere w) {fault : Fault}
    (failed : union.decodeCases v.toTree = .error fault) : ¬fault.IsOfTag := by
  cases v with
  | object ms =>
      have members := map_eq_error failed
      rw [TaggedUnion.decodeNamedBranches_eq, Value.memberTrees_eq] at members
      obtain ⟨t, among, refused⟩ := exists_of_decodeMembers_error members
      obtain ⟨m, member, rfl⟩ := List.mem_map.mp among
      exact not_isOfTag_decodeBranch (inside m member) refused
  | null | bool | number | string | array =>
      cases failed
      exact not_isOfTag_mismatch _ id

/-- A field with elements is refused for what is under its name. -/
theorem not_isOfTag_single {v : Value} {name : String} (field : name ≠ tagKey) {α ρ : Type}
    {write : ρ → Option Value} {whenMissing whenShort : Option α}
    {decode : Origin → Slot Element → Except Fault α}
    (decodes : ∀ {origin fault},
      decode origin (union.slot (v.member name).toTree) = .error fault → ¬fault.IsOfTag)
    {record : String} {count i : Nat} {e : Nat × Fault}
    (failed : (single name write whenMissing whenShort decode).read
      ⟨.held, .members (fieldSlots v), record, count⟩ i = .error e) : ¬e.2.IsOfTag := by
  rcases read_single_eq_error failed with ⟨s, part, refused⟩ | missing | short
  · have found : Entries.get? (fieldSlots v) name = some s := part
    rw [get?_fieldSlots v field] at found
    obtain ⟨w, under, rfl⟩ := Option.map_eq_some_iff.mp found
    apply decodes
    rw [Value.member, under]
    exact refused
  · rw [missing]
    exact field
  · rw [short]
    exact id

theorem not_isOfTag_ifFields {v : Value}
    (thenInside : ∀ w ∈ (v.member "then").items, FailsElsewhere w)
    (elseInside : ∀ w ∈ (v.member "else").items, FailsElsewhere w) {record : String}
    {fault : Fault} (failed : ifFields.readAll record .held (.members (fieldSlots v)) =
      .error fault) : ¬fault.IsOfTag := by
  refine not_isOfTag_readAll (by decide) ?_ failed
  intro place failed
  rcases pair_eq_error failed with failed | failed
  · rcases pair_eq_error failed with failed | failed
    · exact not_isOfTag_comap (.defaulted "condition" "" .text (@IfParts.condition Value))
        (by decide) (map_eq_error failed)
    · exact not_isOfTag_single (by decide) (not_isOfTag_decodeBranch thenInside) failed
  · exact not_isOfTag_single (by decide) (not_isOfTag_decodeBranch elseInside) failed

theorem not_isOfTag_switchFields {v : Value}
    (inside : ∀ m ∈ (v.member "cases").members, ∀ w ∈ m.2.items, FailsElsewhere w)
    {record : String} {fault : Fault}
    (failed : switchFields.readAll record .held (.members (fieldSlots v)) = .error fault) :
    ¬fault.IsOfTag := by
  refine not_isOfTag_readAll (by decide) ?_ failed
  intro place failed
  rcases pair_eq_error failed with failed | failed
  · exact not_isOfTag_comap (.defaulted "value" "" .text (@SwitchParts.value Value)) (by decide)
      (map_eq_error failed)
  · exact not_isOfTag_single (by decide) (not_isOfTag_decodeCases inside) failed

/-- Where all values that stand for elements name kinds, reading fails for other reasons. -/
theorem failsElsewhere {v : Value} (distinct : v.All Value.HasDistinctKeys)
    (kinded : v.firstUnkinded? = none) : FailsElsewhere v := by
  induction v using Value.stepInduction with
  | step v ih =>
      obtain ⟨k, named⟩ := Value.exists_kind_of_firstUnkinded? kinded
      have behind : ∀ c ∈ v.steps, FailsElsewhere c.2 := fun c stepped =>
        ih c stepped (Value.all_of_mem_steps distinct stepped)
          (Value.firstUnkinded?_of_mem_steps kinded stepped)
      intro origin fault failed
      rw [decode_of_kind? distinct.here named] at failed
      unfold Value.steps at behind
      rw [named] at behind
      cases k with
      | ifBlock =>
          obtain ⟨thenInside, elseInside⟩ := List.forall_mem_append.mp behind
          rw [Value.forall_mem_stepsInto] at thenInside elseInside
          exact not_isOfTag_ifFields thenInside elseInside (map_eq_error failed)
      | switchBlock =>
          rw [List.forall_mem_flatMap] at behind
          simp only [Value.forall_mem_stepsInto] at behind
          exact not_isOfTag_switchFields behind (map_eq_error failed)
      | _ => exact UntaggedRecord.not_isOfTag (map_eq_error failed)

end Element

end ScreenFlow.Design
