import ScreenFlow.Flow.Document
import ScreenFlow.Proofs.Codec.Vocabulary

/-!
# Records of a flow that read what they write

Every record of a document has distinct keys, and its fields give it back. Both are checked field by
field; nothing about a record is said twice.
-/

namespace ScreenFlow.Flow

open ScreenFlow.Codec ScreenFlow.Codec.Fields

instance : LawfulRecord NextScreen.fields :=
  ⟨by decide, by unfold NextScreen.fields; infer_instance⟩

instance : LawfulRecord Action.fields := ⟨by decide, by unfold Action.fields; infer_instance⟩

instance : Codec.Lawful Action.codec := inferInstanceAs (Codec.Lawful (Fields.codec _ _))

instance : Codec.Solid Action.codec := inferInstanceAs (Codec.Solid (Fields.codec _ _))

/-! ## Attributes of parts -/

instance : LawfulRecord Line.fields := ⟨by decide, by unfold Line.fields; infer_instance⟩

instance : LawfulRecord BodyText.fields := ⟨by decide, by unfold BodyText.fields; infer_instance⟩

instance : LawfulRecord TextInput.fields := ⟨by decide, by unfold TextInput.fields; infer_instance⟩

instance : LawfulRecord TextArea.fields := ⟨by decide, by unfold TextArea.fields; infer_instance⟩

instance : LawfulRecord Selector.fields := ⟨by decide, by unfold Selector.fields; infer_instance⟩

instance : LawfulRecord OptIn.fields := ⟨by decide, by unfold OptIn.fields; infer_instance⟩

instance : LawfulRecord DatePicker.fields :=
  ⟨by decide, by unfold DatePicker.fields; infer_instance⟩

instance : LawfulRecord CalendarPicker.fields :=
  ⟨by decide, by unfold CalendarPicker.fields; infer_instance⟩

instance : LawfulRecord PhotoPicker.fields :=
  ⟨by decide, by unfold PhotoPicker.fields; infer_instance⟩

instance : LawfulRecord DocumentPicker.fields :=
  ⟨by decide, by unfold DocumentPicker.fields; infer_instance⟩

instance : LawfulRecord Image.fields := ⟨by decide, by unfold Image.fields; infer_instance⟩

instance : LawfulRecord CarouselImage.fields :=
  ⟨by decide, by unfold CarouselImage.fields; infer_instance⟩

instance : LawfulRecord ImageCarousel.fields :=
  ⟨by decide, by unfold ImageCarousel.fields; infer_instance⟩

instance : LawfulRecord EmbeddedLink.fields :=
  ⟨by decide, by unfold EmbeddedLink.fields; infer_instance⟩

instance : LawfulRecord MainContent.fields :=
  ⟨by decide, by unfold MainContent.fields; infer_instance⟩

instance : LawfulRecord NavigationItem.fields :=
  ⟨by decide, by unfold NavigationItem.fields; infer_instance⟩

instance : LawfulRecord NavigationList.fields :=
  ⟨by decide, by unfold NavigationList.fields; infer_instance⟩

instance : LawfulRecord Footer.fields := ⟨by decide, by unfold Footer.fields; infer_instance⟩

end ScreenFlow.Flow
