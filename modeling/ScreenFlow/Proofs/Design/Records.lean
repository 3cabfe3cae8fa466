import ScreenFlow.Design.Screen
import ScreenFlow.Proofs.Codec.Vocabulary

/-!
# Records of a design that read what they write

Every record of a design has distinct keys, and its fields give it back, unset attributes and
defaults included. Both are checked field by field.
-/

namespace ScreenFlow.Design

open ScreenFlow.Codec ScreenFlow.Codec.Fields

instance : LawfulRecord Action.fields := ⟨by decide, by unfold Action.fields; infer_instance⟩

instance : Codec.Lawful Action.codec := inferInstanceAs (Codec.Lawful (Fields.codec _ _))

instance : Codec.Solid Action.codec := inferInstanceAs (Codec.Solid (Fields.codec _ _))

/-! ## Attributes of widgets -/

instance : LawfulRecord Heading.fields := ⟨by decide, by unfold Heading.fields; infer_instance⟩

instance : LawfulRecord BodyText.fields := ⟨by decide, by unfold BodyText.fields; infer_instance⟩

instance : LawfulRecord RichText.fields := ⟨by decide, by unfold RichText.fields; infer_instance⟩

instance : LawfulRecord TextInput.fields := ⟨by decide, by unfold TextInput.fields; infer_instance⟩

instance : LawfulRecord TextArea.fields := ⟨by decide, by unfold TextArea.fields; infer_instance⟩

instance : LawfulRecord Selector.fields := ⟨by decide, by unfold Selector.fields; infer_instance⟩

instance : LawfulRecord OptIn.fields := ⟨by decide, by unfold OptIn.fields; infer_instance⟩

instance : LawfulRecord DatePicker.fields :=
  ⟨by decide, by unfold DatePicker.fields; infer_instance⟩

instance : LawfulRecord CalendarPicker.fields :=
  ⟨by decide, by unfold CalendarPicker.fields; infer_instance⟩

instance : LawfulRecord PhotoPicker.fields :=
  ⟨by decide, by unfold PhotoPicker.fields; infer_instance⟩

instance : LawfulRecord DocumentPicker.fields :=
  ⟨by decide, by unfold DocumentPicker.fields; infer_instance⟩

instance : LawfulRecord Image.fields := ⟨by decide, by unfold Image.fields; infer_instance⟩

instance : LawfulRecord CarouselImage.fields :=
  ⟨by decide, by unfold CarouselImage.fields; infer_instance⟩

instance : LawfulRecord ImageCarousel.fields :=
  ⟨by decide, by unfold ImageCarousel.fields; infer_instance⟩

instance : LawfulRecord EmbeddedLink.fields :=
  ⟨by decide, by unfold EmbeddedLink.fields; infer_instance⟩

instance : LawfulRecord NavigationItem.fields :=
  ⟨by decide, by unfold NavigationItem.fields; infer_instance⟩

instance : LawfulRecord NavigationList.fields :=
  ⟨by decide, by unfold NavigationList.fields; infer_instance⟩

instance : LawfulRecord Footer.fields := ⟨by decide, by unfold Footer.fields; infer_instance⟩

/-! ## Keys -/

/-- The keys that the attributes of a widget are written under. -/
def Widget.keys : Widget → List String
  | .heading _ _ => Heading.fields.names
  | .body _ _ => BodyText.fields.names
  | .richText _ => RichText.fields.names
  | .textInput _ _ => TextInput.fields.names
  | .textArea _ => TextArea.fields.names
  | .selector _ _ => Selector.fields.names
  | .optIn _ => OptIn.fields.names
  | .embeddedLink _ => EmbeddedLink.fields.names
  | .datePicker _ => DatePicker.fields.names
  | .calendarPicker _ => CalendarPicker.fields.names
  | .image _ => Image.fields.names
  | .imageCarousel _ => ImageCarousel.fields.names
  | .photoPicker _ => PhotoPicker.fields.names
  | .documentPicker _ => DocumentPicker.fields.names
  | .navigationList _ => NavigationList.fields.names
  | .footer _ => Footer.fields.names

theorem Widget.keys_members (w : Widget) : (Entries.keys w.members).Sublist w.keys := by
  cases w <;> exact LawfulRecord.keys_sublist _ _

/-- The keys of a widget and its tag are distinct. -/
theorem Widget.nodup_tagged_keys (w : Widget) : (tagKey :: Entries.keys w.members).Nodup := by
  have names : (tagKey :: w.keys).Nodup := by
    cases w <;> exact List.nodup_cons.mpr ⟨by simp only [keys]; decide, LawfulRecord.names_nodup⟩
  exact (w.keys_members.cons_cons tagKey).nodup names

end ScreenFlow.Design
