import ScreenFlow.Proofs.Codec.Vocabulary
import ScreenFlow.Proofs.Json.Integers

/-!
# Writing proper values

Most forms write a proper value whatever is written: texts, names, bounded numbers, lists of these
and records of these. For the others the conditions on what a record writes come down to conditions
on its fields, one at a time.
-/

namespace ScreenFlow

open ScreenFlow.Json ScreenFlow.Codec

namespace Codec

variable {α : Type}

/-- What is written is proper, whatever it is. -/
class Plain (c : Codec α) : Prop where
  all_encode : ∀ a, (c.encode a).All Value.IsProper

attribute [simp] Plain.all_encode

instance : Plain text := ⟨fun s => (Value.all_string s).mpr ⟨trivial, trivial⟩⟩

instance : Plain boolean := ⟨fun b => (Value.all_bool b).mpr ⟨trivial, trivial⟩⟩

instance : Plain float := ⟨fun x => (Value.all_number (.float x)).mpr ⟨trivial, trivial⟩⟩

instance : Plain word32 where
  all_encode n := by
    have small : n.toNat < UInt32.size := n.toNat_lt_size
    have fits : (Number.integer n.toNat).Fits := by
      rw [Number.Fits, Number.minInteger, Number.maxInteger]
      exact ⟨by omega, Int.ofNat_le.mpr (by rw [UInt32.size] at small; rw [UInt64.size]; omega)⟩
    exact (Value.all_number (.integer n.toNat)).mpr ⟨trivial, fits⟩

instance : Plain word64 where
  all_encode n := by
    have fits : (Number.integer n.toNat).Fits := by
      rw [Number.Fits, Number.minInteger]
      exact ⟨by omega, Int.ofNat_le.mpr (Nat.le_pred_of_lt n.toNat_lt_size)⟩
    exact (Value.all_number (.integer n.toNat)).mpr ⟨trivial, fits⟩

instance (all : List α) (name : α → String) : Plain (choice all name) :=
  ⟨fun a => (Value.all_string (name a)).mpr ⟨trivial, trivial⟩⟩

instance (c : Codec α) [Plain c] : Plain (list c) where
  all_encode as := by
    refine (Value.all_array (as.map c.encode)).mpr ⟨⟨trivial, trivial⟩, ?_⟩
    exact List.forall_mem_map.mpr fun a _ => Plain.all_encode a

/-- A list is written as a proper value if its items are. -/
theorem all_encode_list {c : Codec α} {as : List α}
    (each : ∀ a ∈ as, (c.encode a).All Value.IsProper) :
    ((list c).encode as).All Value.IsProper :=
  (Value.all_array (as.map c.encode)).mpr ⟨⟨trivial, trivial⟩, List.forall_mem_map.mpr each⟩

/-- The object of a map is proper if its keys are distinct and its values are proper. -/
theorem all_object_map {es : Entries α} {value : α → Value} (distinct : es.keys.Nodup)
    (each : ∀ e ∈ es, (value e.2).All Value.IsProper) :
    (Value.object (es.map fun e => (e.1, value e.2))).All Value.IsProper := by
  have keys : (Entries.keys (es.map fun e => (e.1, value e.2))).Nodup := by
    rw [Entries.keys, List.map_map]
    exact distinct
  exact (Value.all_object _).mpr ⟨⟨keys, trivial⟩, List.forall_mem_map.mpr each⟩

/-- A map is written as a proper value if its keys are distinct and its values are proper. -/
theorem all_encode_entries {c : Codec α} {es : Entries α} (distinct : es.keys.Nodup)
    (each : ∀ e ∈ es, (c.encode e.2).All Value.IsProper) :
    ((entries c).encode es).All Value.IsProper :=
  all_object_map distinct each

/-! ## Fields -/

namespace Fields

variable {σ ρ β : Type}

/-- The values of members are proper. -/
def ProperMembers (ms : List (String × Value)) : Prop := ∀ m ∈ ms, m.2.All Value.IsProper

@[simp]
theorem properMembers_nil : ProperMembers [] := List.forall_mem_nil _

@[simp]
theorem properMembers_cons (m : String × Value) (ms : List (String × Value)) :
    ProperMembers (m :: ms) ↔ m.2.All Value.IsProper ∧ ProperMembers ms :=
  List.forall_mem_cons

@[simp]
theorem properMembers_append (ms ns : List (String × Value)) :
    ProperMembers (ms ++ ns) ↔ ProperMembers ms ∧ ProperMembers ns :=
  List.forall_mem_append

@[simp]
theorem properMembers_map_toList (name : String) (c : Codec α) (a : Option α) :
    ProperMembers (a.toList.map fun b => (name, c.encode b)) ↔
      ∀ b ∈ a, (c.encode b).All Value.IsProper := by
  rw [ProperMembers, List.forall_mem_map]
  exact forall_congr' fun b => imp_congr_left Option.mem_toList

@[simp]
theorem all_encode_orNull (c : Codec α) (a : Option α) :
    (c.orNull.encode a).All Value.IsProper ↔ ∀ b ∈ a, (c.encode b).All Value.IsProper := by
  cases a with
  | none => simp [Codec.orNull, Value.IsProper, Value.HasDistinctKeys, Value.HasFittingInteger]
  | some a => simp [Codec.orNull]

/-- A tagged object is proper if its keys are distinct and its members are proper. -/
theorem all_tagged_object {key tag : String} {members : List (String × Value)}
    (distinct : (key :: Entries.keys members).Nodup) (proper : ProperMembers members) :
    (Value.object ((key, .string tag) :: members)).All Value.IsProper := by
  refine (Value.all_object _).mpr ⟨⟨distinct, trivial⟩, List.forall_mem_cons.mpr ⟨?_, proper⟩⟩
  exact (Value.all_string tag).mpr ⟨trivial, trivial⟩

/-- A record is written as a proper value exactly when its fields are. -/
theorem all_encode_codec (fs : Fields Tree α α) [LawfulRecord fs] (record : String) (a : α) :
    ((fs.codec record).encode a).All Value.IsProper ↔ ProperMembers (fs.write a) := by
  show (Value.object (fs.write a)).All Value.IsProper ↔ _
  rw [Value.all_object]
  exact and_iff_right ⟨LawfulRecord.nodup_keys fs a, trivial⟩

/-- A tag that is no field keeps the keys of a lawful record distinct. -/
theorem nodup_tagged_keys (fs : Fields Tree α α) [law : LawfulRecord fs] {tag : String}
    (fresh : tag ∉ fs.names) (a : α) : (tag :: Entries.keys (fs.write a)).Nodup :=
  List.nodup_cons.mpr ⟨fun member => fresh ((law.lawful.keys a).subset member),
    LawfulRecord.nodup_keys fs a⟩

end Fields

/-! ## Shared forms -/

end Codec

instance : Codec.Plain ActionName.codec := inferInstanceAs (Codec.Plain (.choice _ _))

instance : Codec.Plain FontWeight.codec := inferInstanceAs (Codec.Plain (.choice _ _))

instance : Codec.Plain InputType.codec := inferInstanceAs (Codec.Plain (.choice _ _))

instance : Codec.Plain CalendarMode.codec := inferInstanceAs (Codec.Plain (.choice _ _))

instance : Codec.Plain ScaleType.codec := inferInstanceAs (Codec.Plain (.choice _ _))

instance : Codec.Plain PhotoSource.codec := inferInstanceAs (Codec.Plain (.choice _ _))

instance : Codec.Plain MediaSize.codec := inferInstanceAs (Codec.Plain (.choice _ _))

instance : Codec.Plain (SelectOption.fields.codec "SelectOption") where
  all_encode option := by
    rw [Codec.Fields.all_encode_codec]
    simp [SelectOption.fields]

instance : Codec.Plain DataSource.codec where
  all_encode source := by
    cases source with
    | options list =>
        have options : Codec.Plain (.list (SelectOption.fields.codec "SelectOption")) :=
          inferInstance
        exact options.all_encode list
    | reference name => exact (Value.all_string name).mpr ⟨trivial, trivial⟩

end ScreenFlow
