import ScreenFlow.Proofs.Codec.Plain
import ScreenFlow.Proofs.Design.Elements
import ScreenFlow.Proofs.Design.Payloads

/-!
# Proper designs

A design is proper when the keys of its maps are distinct and the values in its payloads are proper.
Nothing else can go wrong in writing it: the JSON value of proper screens is proper.
-/

namespace ScreenFlow.Design

open ScreenFlow.Codec ScreenFlow.Codec.Fields ScreenFlow.Json

/-! ## Actions -/

/-- A proper action is written as a proper value. -/
theorem Action.all_encode {a : Action} (proper : a.IsProper) :
    (Action.codec.encode a).All Value.IsProper := by
  have payload : ∀ payload ∈ a.payload,
      ((Codec.entries .value).encode payload).All Value.IsProper := by
    intro payload member
    obtain ⟨⟨distinct, -⟩, each⟩ := (Value.all_object payload).mp (proper payload member)
    exact Codec.all_encode_entries distinct each
  unfold Action.codec
  rw [all_encode_codec]
  simpa [Action.fields] using payload

/-! ## Widgets -/

instance : Codec.Plain (CarouselImage.fields.codec "CarouselImage") where
  all_encode image := by
    rw [all_encode_codec]
    simp [CarouselImage.fields]

theorem NavigationItem.all_encode {item : NavigationItem}
    (proper : ∀ a ∈ item.onClickAction, a.IsProper) :
    ((NavigationItem.fields.codec "NavigationItem").encode item).All Value.IsProper := by
  have action : ∀ a ∈ item.onClickAction, (Action.codec.encode a).All Value.IsProper :=
    fun a member => Action.all_encode (proper a member)
  rw [all_encode_codec]
  simpa [NavigationItem.fields] using action

/-- The members of a widget with proper actions are proper. -/
theorem Widget.properMembers {w : Widget} (proper : ∀ a ∈ w.actions, a.IsProper) :
    ProperMembers w.members := by
  have encoded : ∀ a ∈ w.actions, (Action.codec.encode a).All Value.IsProper :=
    fun a member => Action.all_encode (proper a member)
  -- Other attributes are texts, numbers, names and nulls, which are proper as they stand.
  cases w with
  | heading level attrs => simp [members, Heading.fields]
  | body style attrs => simp [members, BodyText.fields]
  | richText attrs => simp [members, RichText.fields]
  | textInput purpose attrs => simp [members, TextInput.fields]
  | textArea attrs => simp [members, TextArea.fields]
  | image attrs => simp [members, Image.fields]
  | imageCarousel attrs => simp [members, ImageCarousel.fields]
  | photoPicker attrs => simp [members, PhotoPicker.fields]
  | documentPicker attrs => simp [members, DocumentPicker.fields]
  | selector style attrs => simpa [members, Selector.fields, actions] using encoded
  | optIn attrs => simpa [members, OptIn.fields, actions] using encoded
  | embeddedLink attrs => simpa [members, EmbeddedLink.fields, actions] using encoded
  | datePicker attrs => simpa [members, DatePicker.fields, actions] using encoded
  | calendarPicker attrs =>
      unfold members CalendarPicker.fields
      simpa [actions] using encoded
  | footer attrs => simpa [members, Footer.fields, actions] using encoded
  | navigationList attrs =>
      obtain ⟨ofItems, own⟩ := List.forall_mem_append.mp proper
      have items : ((Codec.list (NavigationItem.fields.codec "NavigationItem")).encode
          attrs.items).All Value.IsProper := by
        apply Codec.all_encode_list
        intro item among
        apply NavigationItem.all_encode
        intro a itsOwn
        exact ofItems a (List.mem_filterMap.mpr ⟨item, among, itsOwn⟩)
      have action : ∀ a ∈ attrs.onClickAction, (Action.codec.encode a).All Value.IsProper :=
        fun a member => Action.all_encode (own a (Option.mem_toList.mpr member))
      simpa [members, NavigationList.fields, items] using action

/-! ## Elements -/

namespace Element

theorem all_branchValue_of_forall {es : List Element}
    (each : ∀ e ∈ es, e.toValue.All Value.IsProper) : (branchValue es).All Value.IsProper :=
  all_branchValue.mpr ⟨⟨trivial, trivial⟩, each⟩

/-- A proper element is written as a proper value. -/
theorem all_toValue {e : Element} (proper : e.IsProper) : e.toValue.All Value.IsProper := by
  have text (s : String) : (Value.string s).All Value.IsProper :=
    (Value.all_string s).mpr ⟨trivial, trivial⟩
  -- The keys of control elements are fixed; what can fail are cases under one name, and widgets.
  induction e using branchInduction with
  | widget w =>
      exact all_tagged_object w.nodup_tagged_keys (Widget.properMembers (isProper_widget.mp proper))
  | ifBlock condition thenBranch elseBranch ihThen ihElse =>
      obtain ⟨thenProper, elseProper⟩ := isProper_ifBlock.mp proper
      have thenAll := all_branchValue_of_forall fun e member =>
        ihThen e member (thenProper e member)
      have elseAll := all_branchValue_of_forall fun e member =>
        ihElse e member (elseProper e member)
      rw [toValue_ifBlock]
      refine all_tagged_object (by simp [tagKey]) ?_
      simpa [ProperMembers, text] using And.intro thenAll elseAll
  | switchBlock value cases ih =>
      obtain ⟨distinct, each⟩ := isProper_switchBlock.mp proper
      have casesAll : (casesValue cases).All Value.IsProper := by
        refine Codec.all_object_map distinct ?_
        intro c among
        exact all_branchValue_of_forall fun e member => ih c among e member (each c among e member)
      rw [toValue_switchBlock]
      refine all_tagged_object (by simp [tagKey]) ?_
      simpa [ProperMembers, text] using casesAll

end Element

/-! ## Screens -/

instance : LawfulRecord Screen.fields :=
  ⟨by decide, by unfold Screen.fields; infer_instance⟩

/-- Screens whose elements are proper at every depth are written as a proper value. -/
theorem Screen.all_encode_listCodec {screens : List Screen}
    (proper : ∀ s ∈ screens, ∀ e ∈ s.walk, e.IsProperHere) :
    (listCodec.encode screens).All Value.IsProper := by
  apply Codec.all_encode_list
  intro s member
  have elements : ((Codec.list Element.codec).encode s.elements).All Value.IsProper := by
    apply Codec.all_encode_list
    intro e among
    apply Element.all_toValue
    intro inner inside
    exact proper s member inner (List.mem_flatMap.mpr ⟨e, among, inside⟩)
  rw [all_encode_codec]
  simpa [Screen.fields] using elements

end ScreenFlow.Design
