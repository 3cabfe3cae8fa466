import ScreenFlow.Proofs.Codec.Tidy
import ScreenFlow.Proofs.Flow.Proper

/-!
# Documents are read tidily

Every record of a document is tidy by its fields, every variant of a node by its record or its
branches, and so is a whole document: however it was spelled, its own spelling has no more levels.
-/

namespace ScreenFlow.Flow

open ScreenFlow.Codec ScreenFlow.Codec.Fields ScreenFlow.Json

/-! ## Records -/

-- In every record each field hands on what it ensures of its own member.

instance : Tidy NextScreen.fields := by
  unfold NextScreen.fields
  exact .of_leaves fun room => by simp +contextual

instance : Tidy Action.fields := by
  unfold Action.fields
  exact .of_leaves fun room => by simp +contextual

instance : Codec.Tidy Action.codec := inferInstanceAs (Codec.Tidy (Fields.codec _ _))

instance : Tidy Line.fields := by
  unfold Line.fields
  exact .of_leaves fun room => by simp +contextual

instance : Tidy BodyText.fields := by
  unfold BodyText.fields
  exact .of_leaves fun room => by simp +contextual

instance : Tidy TextInput.fields := by
  unfold TextInput.fields
  exact .of_leaves fun room => by simp +contextual

instance : Tidy TextArea.fields := by
  unfold TextArea.fields
  exact .of_leaves fun room => by simp +contextual

instance : Tidy Selector.fields := by
  unfold Selector.fields
  exact .of_leaves fun room => by simp +contextual

instance : Tidy OptIn.fields := by
  unfold OptIn.fields
  exact .of_leaves fun room => by simp +contextual

instance : Tidy DatePicker.fields := by
  unfold DatePicker.fields
  exact .of_leaves fun room => by simp +contextual

instance : Tidy CalendarPicker.fields := by
  unfold CalendarPicker.fields
  exact .of_leaves fun room => by simp +contextual

instance : Tidy PhotoPicker.fields := by
  unfold PhotoPicker.fields
  exact .of_leaves fun room => by simp +contextual

instance : Tidy DocumentPicker.fields := by
  unfold DocumentPicker.fields
  exact .of_leaves fun room => by simp +contextual

instance : Tidy Image.fields := by
  unfold Image.fields
  exact .of_leaves fun room => by simp +contextual

instance : Tidy CarouselImage.fields := by
  unfold CarouselImage.fields
  exact .of_leaves fun room => by simp +contextual

instance : Tidy ImageCarousel.fields := by
  unfold ImageCarousel.fields
  exact .of_leaves fun room => by simp +contextual

instance : Tidy EmbeddedLink.fields := by
  unfold EmbeddedLink.fields
  exact .of_leaves fun room => by simp +contextual

instance : Tidy MainContent.fields := by
  unfold MainContent.fields
  exact .of_leaves fun room => by simp +contextual

instance : Tidy NavigationItem.fields := by
  unfold NavigationItem.fields
  exact .of_leaves fun room => by simp +contextual

instance : Tidy NavigationList.fields := by
  unfold NavigationList.fields
  exact .of_leaves fun room => by simp +contextual

instance : Tidy Footer.fields := by
  unfold Footer.fields
  exact .of_leaves fun room => by simp +contextual

/-! ## Nodes -/

namespace Node

section

variable (room : Nat)

instance : Fields.Ensures (Slot.Within toValue room) ifFields fun R =>
    ∀ parts, ((branchValue parts.thenBranch).Within room ∧
      ∀ ns ∈ parts.elseBranch, (branchValue ns).Within room) → R parts := by
  unfold ifFields
  refine Ensures.weaken ?_
  intro condition _ thenBranch thenWithin elseBranch elseWithin
  exact ⟨thenWithin, elseWithin⟩

instance : Fields.Ensures (Slot.Within toValue room) switchFields fun R =>
    ∀ parts, (casesValue parts.cases).Within room → R parts := by
  unfold switchFields
  refine Ensures.weaken ?_
  intro value _ cases within
  exact within

instance : Fields.Ensures (Slot.Within toValue room) formFields fun R =>
    ∀ parts, (branchValue parts.children).Within room → R parts := by
  unfold formFields
  refine Ensures.weaken ?_
  intro name _ children within
  exact within

end

theorem within_text (room : Nat) (s : String) : (Value.string s).Within room :=
  ⟨(Value.all_string s).mpr ⟨trivial, trivial⟩, Nat.zero_le room⟩

/-- The object of a type and members has one level more than these. -/
theorem within_tagged {room : Nat} {t : NodeType} {members : List (String × Value)}
    (distinct : (tagKey :: Entries.keys members).Nodup) (within : MembersWithin room members) :
    (tagged t members).Within (room + 1) :=
  Value.within_object distinct (List.forall_mem_cons.mpr ⟨within_text room t.name, within⟩)

theorem within_part {room : Nat} {p : Part} (within : MembersWithin room p.members) :
    (toValue (.part p)).Within (room + 1) :=
  within_tagged p.nodup_tagged_keys within

/-- Every type of node is tidy if everything in its branches is. -/
theorem tidy_variant (t : NodeType) : (variant t).Tidy toValue := by
  cases t with
  | ifBlock =>
      refine Variant.tidy_ofParts _ _ ?_
      rintro room ⟨condition, thenBranch, elseBranch⟩ ⟨thenWithin, elseWithin⟩
      cases elseBranch with
      | none =>
          rw [toValue_ifBlock_none]
          refine within_tagged (by simp [tagKey]) ?_
          simpa [within_text] using thenWithin
      | some elseBranch =>
          rw [toValue_ifBlock_some]
          refine within_tagged (by simp [tagKey]) ?_
          simpa [within_text] using And.intro thenWithin (elseWithin elseBranch rfl)
  | switchBlock =>
      refine Variant.tidy_ofParts _ _ ?_
      rintro room ⟨value, cases⟩ within
      rw [toValue_switchBlock]
      refine within_tagged (by simp [tagKey]) ?_
      simpa [within_text] using within
  | form =>
      refine Variant.tidy_ofParts _ _ ?_
      rintro room ⟨name, children⟩ within
      rw [toValue_form]
      refine within_tagged (by simp [tagKey]) ?_
      simpa [within_text] using within
  | _ => exact Variant.tidy_ofRecord _ _ fun room attrs within => within_part within

end Node

instance : Codec.Tidy Node.codec where
  within_encode {room origin t n} within read := by
    have tidy : ∀ v ∈ Node.union.variants, v.Tidy Node.toValue :=
      List.forall_mem_map.mpr fun t _ => Node.tidy_variant t
    have whole : Node.union.decodeWhole origin t = .ok n := read
    rw [TaggedUnion.decodeWhole] at whole
    split at whole
    · exact (TaggedUnion.within_of_decode tidy within).2 whole
    · cases whole

/-! ## Documents -/

instance : Tidy DataField.fields := by
  unfold DataField.fields
  exact .of_leaves fun room => by simp +contextual

instance : Tidy Layout.fields := by
  unfold Layout.fields
  exact .of_leaves fun room => by simp +contextual

instance : Tidy Screen.fields := by
  unfold Screen.fields
  exact .of_leaves fun room => by simp +contextual

instance : Tidy Document.fields := by
  unfold Document.fields
  exact .of_leaves fun room => by simp +contextual

instance : Codec.Tidy Document.codec := inferInstanceAs (Codec.Tidy (Fields.codec _ _))

end ScreenFlow.Flow
