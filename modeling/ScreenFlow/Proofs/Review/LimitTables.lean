import ScreenFlow.Proofs.Codec.Plain
import ScreenFlow.Proofs.Json.Literals
import ScreenFlow.Proofs.Json.Objects
import ScreenFlow.Review.Limits

/-!
# Limits from configurations

A configuration is an object whose members give some entries of the table, each at most once and as
a literal of a 64-bit word. Other members may say anything. The entries that are given stand in the
table, and the others have their defaults.
-/

namespace ScreenFlow

open ScreenFlow.Json ScreenFlow.Codec

namespace Codec

/-! ## Fields that are words -/

/-- The tree of a 64-bit word. -/
def wordTree (w : UInt64) : Tree := .number (.integer w.toNat)

/-- A 64-bit word is read from its tree and from no other. -/
theorem decode_word64_eq_ok_iff {origin : Origin} {t : Tree} {w : UInt64} :
    word64.decode origin t = .ok w ↔ t = wordTree w := by
  constructor
  · intro read
    obtain ⟨n, below, rfl⟩ := map_eq_ok_iff.mp read
    unfold natBelow at below
    split at below
    · rename_i i
      split at below
      · rename_i fits
        cases below
        have small : i.toNat < UInt64.size := by omega
        rw [wordTree, UInt64.toNat_ofNat_of_lt' small, Int.toNat_of_nonneg fits.1]
      · cases below
    · cases below
  · rintro rfl
    exact Lawful.decode_encode origin w ((Value.all_number _).mpr trivial)

namespace Fields

variable {ρ α β : Type}

/-- Members give words for the given names, or nothing. -/
def Give (names : List String) (ms : List (String × Tree)) (given : String → Option UInt64) :
    Prop :=
  ∀ name ∈ names, Entries.get? ms name = (given name).map wordTree

/-- Fields that are written as words, and read from words and nothing else. -/
class AreWords (fs : Fields Tree ρ α) (view : outParam ((String → Option UInt64) → α)) :
    Prop where
  read_of_give : ∀ {origin : Origin} {ms : List (String × Tree)} {record : String} {count i : Nat}
    {given : String → Option UInt64}, Give fs.names ms given →
      fs.read ⟨origin, .members ms, record, count⟩ i = .ok (view given)
  exists_word : ∀ {origin : Origin} {ms : List (String × Tree)} {record : String} {count i : Nat}
    {a : α}, fs.read ⟨origin, .members ms, record, count⟩ i = .ok a →
      ∀ name ∈ fs.names, ∀ t ∈ Entries.get? ms name, ∃ w, t = wordTree w
  exists_word_of_mem_write : ∀ r, ∀ m ∈ fs.write r, ∃ w : UInt64, m.2 = word64.encode w

instance (f : α → β) (fs : Fields Tree ρ α) (view : (String → Option UInt64) → α)
    [AreWords fs view] : AreWords (f <$> fs) fun given => f (view given) where
  read_of_give {origin ms record count i given} give := by
    have same : Give fs.names ms given := give
    show (fs.read ⟨origin, .members ms, record, count⟩ i).map f = _
    rw [AreWords.read_of_give same]
    rfl
  exists_word {origin ms record count i b} read := by
    obtain ⟨a, inner, -⟩ := map_eq_ok_iff.mp read
    have words : ∀ name ∈ fs.names, ∀ t ∈ Entries.get? ms name, ∃ w, t = wordTree w :=
      AreWords.exists_word inner
    exact words
  exists_word_of_mem_write r := by
    have written : ∀ m ∈ fs.write r, ∃ w : UInt64, m.2 = word64.encode w :=
      AreWords.exists_word_of_mem_write r
    exact written

instance (fs : Fields Tree ρ (α → β)) (gs : Fields Tree ρ α)
    (f : (String → Option UInt64) → α → β) (g : (String → Option UInt64) → α)
    [AreWords fs f] [AreWords gs g] :
    AreWords (fs <*> gs) fun given => f given (g given) where
  read_of_give {origin ms record count i given} give := by
    obtain ⟨first, second⟩ := List.forall_mem_append.mp give
    show Placed.pair (fun f a => f a) (fs.read _ i) (gs.read _ (i + fs.names.length)) = _
    rw [AreWords.read_of_give first, AreWords.read_of_give second]
    rfl
  exists_word read := by
    obtain ⟨_, _, first, second, -⟩ := pair_eq_ok_iff.mp read
    exact List.forall_mem_append.mpr
      ⟨AreWords.exists_word first, AreWords.exists_word second⟩
  exists_word_of_mem_write r := List.forall_mem_append.mpr
    ⟨AreWords.exists_word_of_mem_write r, AreWords.exists_word_of_mem_write r⟩

instance (name : String) (default : UInt64) (get : ρ → UInt64) :
    AreWords (defaulted name default .word64 get) fun given => (given name).getD default where
  read_of_give {origin ms record count i given} give := by
    refine read_single_eq_ok_iff.mpr ?_
    rw [give name List.mem_cons_self]
    cases given name with
    | none => rfl
    | some w => exact decode_word64_eq_ok_iff.mpr rfl
  exists_word {origin ms record count i a} read := by
    refine List.forall_mem_singleton.mpr fun t found => ?_
    have inner := read_single_eq_ok_iff.mp read
    rw [Option.mem_def.mp found] at inner
    exact ⟨a, decode_word64_eq_ok_iff.mp inner⟩
  exists_word_of_mem_write r := List.forall_mem_singleton.mpr ⟨get r, rfl⟩

end Fields

end Codec

/-- A member is a word exactly if its value is spelled as the literal of that word. -/
theorem Json.Member.inObject_eq_wordTree_iff {m : Member} {w : UInt64} :
    m.inObject.2 = wordTree w ↔ IsLiteral m.valueText w.toNat := by
  have fits : w.toNat ≤ Number.maxInteger := Nat.le_pred_of_lt w.toNat_lt_size
  rw [inObject, wordTree, Tree.cut_eq_number_iff, ← Option.some.injEq, ← m.reads_value,
    parse?_eq_natural_iff, and_iff_left fits]

namespace Review.Limits

open Codec.Fields

/-! ## The table of a configuration -/

/-- The number that is spelled under a name, where that name stands first. -/
def givenBy (ms : List Member) (name : String) : Option UInt64 :=
  (ms.find? (·.key == name)).map fun m => .ofNat (literalValue m.valueText)

/-- The default table with what is given in the place of its entries. -/
def defaultWith (given : String → Option UInt64) : Limits where
  headingText := (given "heading_text").getD default.headingText
  bodyText := (given "body_text").getD default.bodyText
  captionText := (given "caption_text").getD default.captionText
  captionWarningPercent := (given "caption_warning_percent").getD default.captionWarningPercent
  richText := (given "rich_text").getD default.richText
  inputLabel := (given "input_label").getD default.inputLabel
  helperText := (given "helper_text").getD default.helperText
  embeddedLinkText := (given "embedded_link_text").getD default.embeddedLinkText
  navigationListItems := (given "navigation_list_items").getD default.navigationListItems
  componentsPerScreen := (given "components_per_screen").getD default.componentsPerScreen
  componentsWarningPercent :=
    (given "components_warning_percent").getD default.componentsWarningPercent
  formComponentsPerScreen :=
    (given "form_components_per_screen").getD default.formComponentsPerScreen
  embeddedLinksPerScreen :=
    (given "embedded_links_per_screen").getD default.embeddedLinksPerScreen
  footersPerScreen := (given "footers_per_screen").getD default.footersPerScreen
  screensPerDocument := (given "screens_per_document").getD default.screensPerDocument

example : fields.names = ["heading_text", "body_text", "caption_text", "caption_warning_percent",
    "rich_text", "input_label", "helper_text", "embedded_link_text", "navigation_list_items",
    "components_per_screen", "components_warning_percent", "form_components_per_screen",
    "embedded_links_per_screen", "footers_per_screen", "screens_per_document"] := rfl

instance (name : String) (get : Limits → UInt64) :
    AreWords (entry name get) fun given => (given name).getD (get default) := by
  unfold entry
  infer_instance

instance : AreWords fields defaultWith := by
  unfold fields
  infer_instance

instance (name : String) (get : Limits → UInt64) : Fields.Lawful (entry name get) get := by
  unfold entry
  infer_instance

instance : LawfulRecord fields := ⟨by decide, by unfold fields; infer_instance⟩

instance : Codec.Lawful codec := inferInstanceAs (Codec.Lawful (Fields.codec _ _))

theorem get?_inObject (ms : List Member) (name : String) :
    Entries.get? (ms.map Member.inObject) name =
      (ms.find? (·.key == name)).map fun m => m.inObject.2 := by
  rw [Entries.get?, List.find?_map, Option.map_map]
  rfl

/-- If the known names are given literals, the members give what is spelled. -/
theorem give_of_literals {names : List String} {ms : List Member}
    (literals : ∀ m ∈ ms, m.key ∈ names → ∃ n : UInt64, IsLiteral m.valueText n.toNat) :
    Give names (ms.map Member.inObject) (givenBy ms) := by
  intro name known
  rw [get?_inObject, givenBy, Option.map_map]
  cases found : ms.find? (·.key == name) with
  | none => rfl
  | some m =>
      have hit := List.find?_some found
      have key : m.key = name := eq_of_beq hit
      obtain ⟨n, literal⟩ := literals m (List.mem_of_find?_eq_some found) (key ▸ known)
      rw [Option.map_some, Option.map_some, Member.inObject_eq_wordTree_iff.mpr literal,
        Function.comp_apply, literal.value_eq, UInt64.ofNat_toNat]

/-- If no known name stands twice and the members under these names are words, they are spelled as
literals. -/
theorem literals_of_words {names : List String} {ms : List Member}
    (single : ∀ name ∈ names, (ms.map Member.key).count name ≤ 1)
    (words : ∀ name ∈ names, ∀ t ∈ Entries.get? (ms.map Member.inObject) name,
      ∃ w, t = wordTree w) :
    ∀ m ∈ ms, m.key ∈ names → ∃ n : UInt64, IsLiteral m.valueText n.toNat := by
  intro m member known
  have once : (Entries.keys (ms.map Member.inObject)).count m.inObject.1 ≤ 1 := by
    rw [Entries.keys, List.map_map]
    exact single m.key known
  obtain ⟨w, word⟩ := words m.key known m.inObject.2
    (Entries.get?_of_mem (List.mem_map_of_mem member) once)
  exact ⟨w, Member.inObject_eq_wordTree_iff.mp word⟩

/-- A configuration is read exactly if no limit stands twice and each that is given has the literal
of a 64-bit word. -/
theorem ofText_objectText_eq_ok_iff {ms : List Member} {l : Limits} :
    ofText (objectText ms) = .ok l ↔
      (∀ name ∈ fields.names, (ms.map Member.key).count name ≤ 1) ∧
        (∀ m ∈ ms, m.key ∈ fields.names → ∃ n : UInt64, IsLiteral m.valueText n.toNat) ∧
          l = defaultWith (givenBy ms) := by
  have keys : (ms.map Member.inObject).map Prod.fst = ms.map Member.key := List.map_map
  have read : ofText (objectText ms) =
      fields.readAll "Limits" .text (.members (ms.map Member.inObject)) := by
    rw [ofText, Codec.ofText, parse?_objectText]
    rfl
  rw [read, readAll_members_eq_ok_iff, keys]
  refine and_congr_right fun single => ⟨fun whole => ?_, ?_⟩
  · have literals := literals_of_words single (AreWords.exists_word whole)
    rw [AreWords.read_of_give (give_of_literals literals), Except.ok.injEq] at whole
    exact ⟨literals, whole.symm⟩
  · rintro ⟨literals, rfl⟩
    exact AreWords.read_of_give (give_of_literals literals)

/-- What holds of the table that is written and of all words holds of everything in it. -/
theorem all_encode {P : Value → Prop} {l : Limits} (whole : P (codec.encode l))
    (words : ∀ w : UInt64, (word64.encode w).All P) : (codec.encode l).All P := by
  refine (Value.all_object _).mpr ⟨whole, fun m member => ?_⟩
  obtain ⟨w, word⟩ := AreWords.exists_word_of_mem_write l m member
  rw [word]
  exact words w

/-- A table is read from its text, in both forms. -/
theorem ofText_toText (l : Limits) (indented : Bool) : ofText (l.toText indented) = .ok l := by
  have proper : (codec.encode l).All Value.IsProper :=
    all_encode ⟨LawfulRecord.nodup_keys fields l, trivial⟩ Plain.all_encode
  have floats : (codec.encode l).All Value.HasReadableFloat :=
    all_encode trivial fun w => (Value.all_number _).mpr trivial
  have flat : (codec.encode l).depth ≤ maxDepth := by
    refine Value.depth_object_le_iff.mpr fun m member => ?_
    obtain ⟨w, word⟩ := AreWords.exists_word_of_mem_write l m member
    rw [word]
    exact Nat.zero_le _
  rw [ofText, Codec.ofText, toText, Codec.toText,
    Tree.parse?_render_of_depth_le (Value.all_readsBack proper floats) flat]
  exact Codec.Lawful.decode_encode .text l (proper.imp fun _ both => both.1)

/-- A configuration is read exactly if every limit is given at most once and as the literal of a
64-bit word, whatever else it has. The table is then the default one with exactly the given entries
replaced. A limit that stands twice is a fault, and every table is read from its own text. -/
theorem configuration_replaces_defaults :
    (∀ (ms : List Member) (l : Limits), ofText (objectText ms) = .ok l ↔
      (∀ name ∈ fields.names, (ms.map Member.key).count name ≤ 1) ∧
        (∀ m ∈ ms, m.key ∈ fields.names → ∃ n : UInt64, IsLiteral m.valueText n.toNat) ∧
          l = defaultWith (givenBy ms)) ∧
      (∀ ms : List Member, ∀ name ∈ fields.names, 2 ≤ (ms.map Member.key).count name →
        ∃ fault, ofText (objectText ms) = .error fault) ∧
        ∀ (l : Limits) (indented : Bool), ofText (l.toText indented) = .ok l := by
  refine ⟨fun ms l => ofText_objectText_eq_ok_iff, fun ms name known twice => ?_, ofText_toText⟩
  cases read : ofText (objectText ms) with
  | error fault => exact ⟨fault, rfl⟩
  | ok l =>
      have once := (ofText_objectText_eq_ok_iff.mp read).1 name known
      omega

/-- A configuration with one limit, spelled with an escape, between members with other names. -/
def captionConfiguration : List Member := [
  ⟨"\"note\"", "[null, \x7b\x7d]", "note", .array [.null, .object []], rfl, rfl⟩,
  ⟨" \"caption\\u005ftext\"", "\t120 ", "caption_text", .number (.integer 120), rfl, rfl⟩,
  ⟨"\"note\"", "false", "note", .bool false, rfl, rfl⟩]

theorem captionConfiguration_is_read :
    ofText (objectText captionConfiguration) = .ok { default with captionText := 120 } := by
  have literal : IsLiteral "\t120 " (120 : UInt64).toNat :=
    ⟨['\t'], [' '], List.forall_mem_singleton.mpr rfl, List.forall_mem_singleton.mpr rfl,
      by decide⟩
  refine (configuration_replaces_defaults.1 captionConfiguration _).mpr ⟨by decide, ?_, by decide⟩
  refine List.forall_mem_cons.mpr ⟨fun known => absurd known (by decide), ?_⟩
  refine List.forall_mem_cons.mpr ⟨fun _ => ⟨120, literal⟩, ?_⟩
  exact List.forall_mem_singleton.mpr fun known => absurd known (by decide)

end Review.Limits

end ScreenFlow
