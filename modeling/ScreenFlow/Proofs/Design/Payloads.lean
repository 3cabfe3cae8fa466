import ScreenFlow.Design.Snapshot
import ScreenFlow.Proofs.Actions
import ScreenFlow.Proofs.Codec.Ensures
import ScreenFlow.Proofs.Walk

/-!
# Payloads of designs

Whatever a snapshot says, in the screens that are read from it no key stands twice in a payload or
in cases, and all integers in payloads have at most 64 bits.
-/

namespace ScreenFlow.Design

open ScreenFlow.Codec ScreenFlow.Codec.Fields ScreenFlow.Json

/-! ## Actions -/

/-- The payload of an action is a proper object. -/
def Action.IsProper (a : Action) : Prop :=
  ∀ payload ∈ a.payload, (Value.object payload).All Value.IsProper

instance (a : Action) : Decidable a.IsProper :=
  inferInstanceAs (Decidable (∀ payload ∈ a.payload, (Value.object payload).All Value.IsProper))

instance : Codec.Ensures Action.codec Action.IsProper := by
  unfold Action.codec Action.fields
  refine Ensures.of_codec ?_ "Action"
  intro name _ next _ url _ payload proper entries member
  obtain ⟨distinct, each⟩ := proper entries member
  exact (Value.all_object entries).mpr ⟨⟨distinct, trivial⟩, each⟩

/-- The action of a record is proper, if it has one. -/
abbrev HasProperAction {α : Type} (action : α → Option Action) (a : α) : Prop :=
  ∀ b ∈ action a, b.IsProper

/-! ## Records with actions -/

instance : Fields.Ensures Tree.Fits Selector.fields fun Q =>
    ∀ s, HasProperAction Selector.onSelectAction s → Q s := by
  unfold Selector.fields
  exact Ensures.weaken (by dsimp only; intros; assumption)

instance : Fields.Ensures Tree.Fits OptIn.fields fun Q =>
    ∀ o, HasProperAction OptIn.onClickAction o → Q o := by
  unfold OptIn.fields
  exact Ensures.weaken (by dsimp only; intros; assumption)

instance : Fields.Ensures Tree.Fits EmbeddedLink.fields fun Q =>
    ∀ l, HasProperAction EmbeddedLink.onClickAction l → Q l := by
  unfold EmbeddedLink.fields
  exact Ensures.weaken (by dsimp only; intros; assumption)

instance : Fields.Ensures Tree.Fits DatePicker.fields fun Q =>
    ∀ p, HasProperAction DatePicker.onSelectAction p → Q p := by
  unfold DatePicker.fields
  exact Ensures.weaken (by dsimp only; intros; assumption)

instance : Fields.Ensures Tree.Fits CalendarPicker.fields fun Q =>
    ∀ p, HasProperAction CalendarPicker.onSelectAction p → Q p := by
  unfold CalendarPicker.fields
  exact Ensures.weaken (by dsimp only; intros; assumption)

instance : Fields.Ensures Tree.Fits Footer.fields fun Q =>
    ∀ f, HasProperAction Footer.onClickAction f → Q f := by
  unfold Footer.fields
  exact Ensures.weaken (by dsimp only; intros; assumption)

instance : Codec.Ensures (NavigationItem.fields.codec "NavigationItem")
    (HasProperAction NavigationItem.onClickAction) := by
  unfold NavigationItem.fields
  exact Ensures.of_codec (by dsimp only; intros; assumption) "NavigationItem"

instance : Fields.Ensures Tree.Fits NavigationList.fields fun Q =>
    ∀ l, (∀ item ∈ l.items, HasProperAction NavigationItem.onClickAction item) ∧
      HasProperAction NavigationList.onClickAction l → Q l := by
  unfold NavigationList.fields
  refine Ensures.weaken ?_
  intro name _ label _ description _ items proper size _ action own visible _
  refine ⟨?_, own⟩
  rcases proper with rfl | proper
  · intro item member
    exact absurd member List.not_mem_nil
  · exact proper

/-! ## Elements -/

instance (Q : Element → Prop) : Fields.Ensures (Slot.Meets Q) ifFields fun R =>
    ∀ parts, ((∀ e ∈ parts.thenBranch, Q e) ∧ ∀ e ∈ parts.elseBranch, Q e) → R parts := by
  unfold ifFields
  refine Ensures.weaken ?_
  intro condition _ thenBranch thenMeets elseBranch elseMeets
  exact ⟨thenMeets, elseMeets⟩

instance (Q : Element → Prop) : Fields.Ensures (Slot.Meets Q) switchFields fun R =>
    ∀ parts, ((Entries.keys parts.cases).Nodup ∧ ∀ c ∈ parts.cases, ∀ e ∈ c.2, Q e) → R parts := by
  unfold switchFields
  refine Ensures.weaken ?_
  intro value _ cases distinct meet
  exact ⟨distinct, meet⟩

namespace Element

/-- An element, apart from what is inside its branches, has proper actions and distinct cases. -/
def IsProperHere : Element → Prop
  | .widget w => ∀ a ∈ w.actions, a.IsProper
  | .ifBlock _ _ _ => True
  | .switchBlock _ cases => (Entries.keys cases).Nodup

instance : DecidablePred IsProperHere
  | .widget w => inferInstanceAs (Decidable (∀ a ∈ w.actions, a.IsProper))
  | .switchBlock _ cases => inferInstanceAs (Decidable (Entries.keys cases).Nodup)
  | .ifBlock _ _ _ => isTrue trivial

/-- An element and everything inside it is proper. -/
def IsProper (e : Element) : Prop := ∀ inner ∈ e.walk, inner.IsProperHere

instance (e : Element) : Decidable e.IsProper :=
  inferInstanceAs (Decidable (∀ inner ∈ e.walk, inner.IsProperHere))

theorem isProper_widget {w : Widget} : (widget w).IsProper ↔ ∀ a ∈ w.actions, a.IsProper :=
  List.forall_mem_singleton

theorem isProper_ifBlock {condition : String} {thenBranch elseBranch : List Element} :
    (ifBlock condition thenBranch elseBranch).IsProper ↔
      (∀ e ∈ thenBranch, e.IsProper) ∧ ∀ e ∈ elseBranch, e.IsProper := by
  rw [IsProper, walk, List.cons_append, List.forall_mem_cons, List.forall_mem_append, walkBranch_eq,
    walkBranch_eq, List.forall_mem_flatMap, List.forall_mem_flatMap]
  exact and_iff_right trivial

theorem isProper_switchBlock {value : String} {cases : List (String × List Element)} :
    (switchBlock value cases).IsProper ↔
      (Entries.keys cases).Nodup ∧ ∀ branch ∈ cases, ∀ e ∈ branch.2, e.IsProper := by
  rw [IsProper, walk, List.forall_mem_cons, walkCases_eq, List.forall_mem_flatMap]
  simp only [List.forall_mem_flatMap]
  rfl

/-- A widget with at most one action is proper if that is. -/
theorem isProper_of_action {w : Widget} {action : Option Action}
    (single : w.actions = action.toList) (proper : ∀ a ∈ action, a.IsProper) :
    (widget w).IsProper := by
  rw [isProper_widget, single]
  intro a member
  exact proper a (Option.mem_toList.mp member)

/-- Every kind of element is proper if everything in its branches is. -/
theorem keeps_variant (k : Kind) : (variant k).Keeps IsProper := by
  have plain {w : Widget} (none : w.actions = []) : (widget w).IsProper := by
    rw [isProper_widget, none]
    intro a member
    exact absurd member List.not_mem_nil
  cases k with
  | checkboxGroup | radioButtonsGroup | chipsSelector | dropdown | optIn | embeddedLink | datePicker
  | calendarPicker | footer =>
      refine Variant.keeps_ofRecord _ _ ?_
      intro attrs proper
      exact isProper_of_action rfl proper
  | navigationList =>
      refine Variant.keeps_ofRecord _ _ ?_
      intro list proper
      apply isProper_widget.mpr
      intro a member
      rcases List.mem_append.mp member with ofItem | own
      · obtain ⟨item, among, itsOwn⟩ := List.mem_filterMap.mp ofItem
        exact proper.1 item among a itsOwn
      · exact proper.2 a (Option.mem_toList.mp own)
  | ifBlock =>
      refine Variant.keeps_ofParts _ _ ?_
      intro parts proper
      exact isProper_ifBlock.mpr proper
  | switchBlock =>
      refine Variant.keeps_ofParts _ _ ?_
      intro parts proper
      exact isProper_switchBlock.mpr proper
  | _ =>
      refine Variant.keeps_ofRecord _ _ ?_
      intro attrs
      exact plain rfl

/-- An element that is read from a tree whose integers fit is proper. -/
theorem isProper_of_decode {origin : Origin} {t : Tree} {e : Element} (fits : t.Fits)
    (read : union.decode origin t = .ok e) : e.IsProper := by
  have keeps : ∀ v ∈ union.variants, v.Keeps IsProper :=
    List.forall_mem_map.mpr fun k _ => keeps_variant k
  exact (TaggedUnion.meets_of_decode keeps fits).2 read

end Element

/-! ## Snapshots -/

instance : Codec.Ensures (RawScreen.fields.codec "RawScreen") fun raw =>
    ∀ v ∈ raw.elements, v.All Value.IsProper := by
  unfold RawScreen.fields
  refine Ensures.of_codec ?_ "RawScreen"
  intro id _ title _ elements proper
  rcases proper with rfl | proper
  · intro v member
    exact absurd member List.not_mem_nil
  · exact proper

instance : Codec.Ensures RawScreen.listCodec fun raws =>
    ∀ raw ∈ raws, ∀ v ∈ raw.elements, v.All Value.IsProper :=
  inferInstanceAs (Codec.Ensures (.list (RawScreen.fields.codec "RawScreen")) _)

/-- The elements of a snapshot that is read are proper values. -/
theorem Snapshot.proper_of_decode {t : Tree} {s : Snapshot} (fits : t.Fits)
    (read : decode t = .ok s) : ∀ raw ∈ s.screens, ∀ v ∈ raw.elements, v.All Value.IsProper := by
  unfold decode at read
  split at read
  · have outcome := Codec.mapError_eq_ok_iff.mp read
    split at outcome
    · rename_i ms _
      have all : (Source.members ms).All Tree.Fits := Tree.fits_object.mp fits
      unfold fields at outcome
      refine Ensures.of_readAll (Q := fun s : Snapshot =>
        ∀ raw ∈ s.screens, ∀ v ∈ raw.elements, v.All Value.IsProper) ?_ all outcome
      intro screens proper
      exact proper
    · obtain ⟨raws, list, rfl⟩ := Codec.map_eq_ok_iff.mp outcome
      exact Codec.Ensures.of_decode fits list
  · cases read

/-- An element that is read from a proper value is proper. -/
theorem isProper_of_readElement {screen : String} {position : Nat} {v : Value} {e : Element}
    (proper : v.All Value.IsProper) (read : readElement screen position v = .ok e) :
    e.IsProper := by
  unfold readElement at read
  split at read
  · cases read
  · cases read
  · exact Element.isProper_of_decode (Value.fits_toTree proper) (Codec.mapError_eq_ok_iff.mp read)

theorem isProper_of_readElements {screen : String} {position : Nat} {vs : List Value}
    {es : List Element} (proper : ∀ v ∈ vs, v.All Value.IsProper)
    (read : readElements screen position vs = .ok es) : ∀ e ∈ es, e.IsProper := by
  induction vs generalizing position es with
  | nil => cases read; simp
  | cons v vs ih =>
      obtain ⟨first, others⟩ := List.forall_mem_cons.mp proper
      obtain ⟨e, firstRead, rest⟩ := Codec.bind_eq_ok_iff.mp read
      obtain ⟨es, othersRead, whole⟩ := Codec.bind_eq_ok_iff.mp rest
      cases whole
      exact List.forall_mem_cons.mpr
        ⟨isProper_of_readElement first firstRead, ih others othersRead⟩

theorem isProper_of_readScreens {raws : List RawScreen} {screens : List Screen}
    (proper : ∀ raw ∈ raws, ∀ v ∈ raw.elements, v.All Value.IsProper)
    (read : readScreens raws = .ok screens) : ∀ s ∈ screens, ∀ e ∈ s.elements, e.IsProper := by
  induction raws generalizing screens with
  | nil => cases read; simp
  | cons raw raws ih =>
      obtain ⟨first, others⟩ := List.forall_mem_cons.mp proper
      obtain ⟨s, firstRead, rest⟩ := Codec.bind_eq_ok_iff.mp read
      obtain ⟨ss, othersRead, whole⟩ := Codec.bind_eq_ok_iff.mp rest
      obtain ⟨es, elements, made⟩ := Codec.bind_eq_ok_iff.mp firstRead
      cases whole
      cases made
      exact List.forall_mem_cons.mpr
        ⟨isProper_of_readElements first elements, ih others othersRead⟩

/-- All elements of the screens of a text, at every depth, are proper. -/
theorem isProperHere_of_parseScreens {text : String} {screens : List Screen}
    (parsed : parseScreens text = .ok screens) : ∀ s ∈ screens, ∀ e ∈ s.walk, e.IsProperHere := by
  unfold parseScreens at parsed
  split at parsed
  · rename_i snapshot ofText
    unfold Snapshot.ofText at ofText
    split at ofText
    · rename_i t tree
      have proper := Snapshot.proper_of_decode (Tree.fits_of_parse? tree) ofText
      intro s member
      rw [Screen.walk, List.forall_mem_flatMap]
      exact isProper_of_readScreens proper parsed s member
    · cases ofText
  · cases parsed

end ScreenFlow.Design
