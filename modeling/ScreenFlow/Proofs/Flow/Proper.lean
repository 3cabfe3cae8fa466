import ScreenFlow.Proofs.Actions
import ScreenFlow.Proofs.Codec.Plain
import ScreenFlow.Proofs.Flow.Nodes

/-!
# Proper documents

A document is proper when the keys of its maps are distinct and the values in its payloads are
proper. Nothing else can go wrong in writing it: the JSON value of a proper document is proper.
-/

namespace ScreenFlow.Flow

open ScreenFlow.Codec ScreenFlow.Codec.Fields ScreenFlow.Json

/-! ## Actions -/

/-- The payload of an action is a proper object. -/
def Action.IsProper (a : Action) : Prop :=
  ∀ payload ∈ a.payload, (Value.object payload).All Value.IsProper

instance : Codec.Plain (NextScreen.fields.codec "NextScreen") where
  all_encode next := by
    rw [all_encode_codec]
    simp [NextScreen.fields]

/-- A proper action is written as a proper value. -/
theorem Action.all_encode {a : Action} (proper : a.IsProper) :
    (Action.codec.encode a).All Value.IsProper := by
  have payload : ∀ payload ∈ a.payload,
      ((Codec.entries .value).encode payload).All Value.IsProper := by
    intro payload member
    obtain ⟨⟨distinct, -⟩, each⟩ := (Value.all_object payload).mp (proper payload member)
    exact Codec.all_encode_entries distinct each
  unfold Action.codec
  rw [all_encode_codec]
  simpa [Action.fields] using payload

/-! ## Parts -/

instance : Codec.Plain (CarouselImage.fields.codec "CarouselImageWire") where
  all_encode image := by
    rw [all_encode_codec]
    simp [CarouselImage.fields]

instance : Codec.Plain (MainContent.fields.codec "MainContentWire") where
  all_encode content := by
    rw [all_encode_codec]
    simp [MainContent.fields]

theorem NavigationItem.all_encode {item : NavigationItem}
    (proper : ∀ a ∈ item.onClickAction, a.IsProper) :
    ((NavigationItem.fields.codec "NavigationItemWire").encode item).All Value.IsProper := by
  have action : ∀ a ∈ item.onClickAction, (Action.codec.encode a).All Value.IsProper :=
    fun a member => Action.all_encode (proper a member)
  rw [all_encode_codec]
  simpa [NavigationItem.fields] using action

/-- The members of a part with proper actions are proper. -/
theorem Part.properMembers {p : Part} (proper : ∀ a ∈ p.actions, a.IsProper) :
    ProperMembers p.members := by
  have encoded : ∀ a ∈ p.actions, (Action.codec.encode a).All Value.IsProper :=
    fun a member => Action.all_encode (proper a member)
  -- Other attributes are texts, numbers and names, which are proper as they stand.
  cases p with
  | line style attrs => simp [members, Line.fields]
  | body style attrs => simp [members, BodyText.fields]
  | textInput attrs => simp [members, TextInput.fields]
  | textArea attrs => simp [members, TextArea.fields]
  | image attrs => simp [members, Image.fields]
  | imageCarousel attrs => simp [members, ImageCarousel.fields]
  | photoPicker attrs => simp [members, PhotoPicker.fields]
  | documentPicker attrs => simp [members, DocumentPicker.fields]
  | selector style attrs => simpa [members, Selector.fields, actions] using encoded
  | optIn attrs => simpa [members, OptIn.fields, actions] using encoded
  | embeddedLink attrs => simpa [members, EmbeddedLink.fields, actions] using encoded
  | datePicker attrs => simpa [members, DatePicker.fields, actions] using encoded
  | calendarPicker attrs =>
      unfold members CalendarPicker.fields
      simpa [actions] using encoded
  | footer attrs => simpa [members, Footer.fields, actions] using encoded
  | navigationList attrs =>
      obtain ⟨ofItems, own⟩ := List.forall_mem_append.mp proper
      have items : ((Codec.list (NavigationItem.fields.codec "NavigationItemWire")).encode
          attrs.listItems).All Value.IsProper := by
        apply Codec.all_encode_list
        intro item among
        apply NavigationItem.all_encode
        intro a itsOwn
        exact ofItems a (List.mem_filterMap.mpr ⟨item, among, itsOwn⟩)
      have action : ∀ a ∈ attrs.onClickAction, (Action.codec.encode a).All Value.IsProper :=
        fun a member => Action.all_encode (own a (Option.mem_toList.mpr member))
      simpa [members, NavigationList.fields, items] using action

/-- The keys of a part and its tag are distinct. -/
theorem Part.nodup_tagged_keys (p : Part) : (tagKey :: Entries.keys p.members).Nodup := by
  cases p with
  | line style attrs => exact Fields.nodup_tagged_keys Line.fields (by decide) attrs
  | body style attrs => exact Fields.nodup_tagged_keys BodyText.fields (by decide) attrs
  | textInput attrs => exact Fields.nodup_tagged_keys TextInput.fields (by decide) attrs
  | textArea attrs => exact Fields.nodup_tagged_keys TextArea.fields (by decide) attrs
  | selector style attrs => exact Fields.nodup_tagged_keys Selector.fields (by decide) attrs
  | optIn attrs => exact Fields.nodup_tagged_keys OptIn.fields (by decide) attrs
  | embeddedLink attrs => exact Fields.nodup_tagged_keys EmbeddedLink.fields (by decide) attrs
  | datePicker attrs => exact Fields.nodup_tagged_keys DatePicker.fields (by decide) attrs
  | calendarPicker attrs => exact Fields.nodup_tagged_keys CalendarPicker.fields (by decide) attrs
  | image attrs => exact Fields.nodup_tagged_keys Image.fields (by decide) attrs
  | imageCarousel attrs => exact Fields.nodup_tagged_keys ImageCarousel.fields (by decide) attrs
  | photoPicker attrs => exact Fields.nodup_tagged_keys PhotoPicker.fields (by decide) attrs
  | documentPicker attrs => exact Fields.nodup_tagged_keys DocumentPicker.fields (by decide) attrs
  | navigationList attrs => exact Fields.nodup_tagged_keys NavigationList.fields (by decide) attrs
  | footer attrs => exact Fields.nodup_tagged_keys Footer.fields (by decide) attrs

/-! ## Nodes -/

namespace Node

/-- A node, apart from its children, has proper actions and distinct cases. -/
def IsProperHere : Node → Prop
  | .part p => ∀ a ∈ p.actions, a.IsProper
  | .switchBlock _ cases => (Entries.keys cases).Nodup
  | .ifBlock _ _ _ | .form _ _ => True

/-- A node and everything inside it is proper. -/
def IsProper (n : Node) : Prop := ∀ inner ∈ n.walk, inner.IsProperHere

theorem isProper_ifBlock {condition : String} {thenBranch : List Node}
    {elseBranch : Option (List Node)} : (ifBlock condition thenBranch elseBranch).IsProper ↔
      (∀ n ∈ thenBranch, n.IsProper) ∧ ∀ n ∈ elseBranch.getD [], n.IsProper := by
  rw [IsProper, walk_ifBlock, List.forall_mem_cons, List.forall_mem_append,
    List.forall_mem_flatMap, List.forall_mem_flatMap]
  exact and_iff_right trivial

theorem isProper_switchBlock {value : String} {cases : List (String × List Node)} :
    (switchBlock value cases).IsProper ↔
      (Entries.keys cases).Nodup ∧ ∀ branch ∈ cases, ∀ n ∈ branch.2, n.IsProper := by
  rw [IsProper, walk, List.forall_mem_cons, walkCases_eq, List.forall_mem_flatMap]
  simp only [List.forall_mem_flatMap]
  rfl

theorem isProper_form {name : String} {children : List Node} :
    (form name children).IsProper ↔ ∀ n ∈ children, n.IsProper := by
  rw [IsProper, walk, List.forall_mem_cons, walkList_eq, List.forall_mem_flatMap]
  exact and_iff_right trivial

theorem all_branchValue_of_forall {ns : List Node} (each : ∀ n ∈ ns, n.toValue.All Value.IsProper) :
    (branchValue ns).All Value.IsProper :=
  all_branchValue.mpr ⟨⟨trivial, trivial⟩, each⟩

/-- A proper node is written as a proper value. -/
theorem all_toValue {n : Node} (proper : n.IsProper) : n.toValue.All Value.IsProper := by
  have text (s : String) : (Value.string s).All Value.IsProper :=
    (Value.all_string s).mpr ⟨trivial, trivial⟩
  -- The keys of control nodes are fixed; what can fail are cases under one name, and parts.
  induction n using childInduction with
  | part p =>
      have actions : ∀ a ∈ p.actions, a.IsProper := proper (.part p) (mem_walk_self _)
      exact all_tagged_object p.nodup_tagged_keys (Part.properMembers actions)
  | ifBlock condition thenBranch elseBranch ihThen ihElse =>
      obtain ⟨thenProper, elseProper⟩ := isProper_ifBlock.mp proper
      have thenAll := all_branchValue_of_forall fun n member =>
        ihThen n member (thenProper n member)
      cases elseBranch with
      | none =>
          rw [toValue_ifBlock_none]
          refine all_tagged_object (by simp [tagKey]) ?_
          simpa [ProperMembers, text] using thenAll
      | some elseBranch =>
          have elseAll := all_branchValue_of_forall fun n member =>
            ihElse elseBranch rfl n member (elseProper n member)
          rw [toValue_ifBlock_some]
          refine all_tagged_object (by simp [tagKey]) ?_
          simpa [ProperMembers, text] using And.intro thenAll elseAll
  | switchBlock value cases ih =>
      obtain ⟨distinct, each⟩ := isProper_switchBlock.mp proper
      have casesAll : (casesValue cases).All Value.IsProper := by
        refine Codec.all_object_map distinct ?_
        intro c among
        exact all_branchValue_of_forall fun n member => ih c among n member (each c among n member)
      rw [toValue_switchBlock]
      refine all_tagged_object (by simp [tagKey]) ?_
      simpa [ProperMembers, text] using casesAll
  | form name children ih =>
      have childrenAll := all_branchValue_of_forall fun n member =>
        ih n member (isProper_form.mp proper n member)
      rw [toValue_form]
      refine all_tagged_object (by simp [tagKey]) ?_
      simpa [ProperMembers, text] using childrenAll

end Node

/-! ## Documents -/

instance : Codec.Plain (DataField.fields.codec "DataField") where
  all_encode field := by
    rw [all_encode_codec]
    simp [DataField.fields]

/-- The keys of the data of a screen are distinct, and all its nodes are proper. -/
structure Screen.IsProper (s : Screen) : Prop where
  data : ∀ data ∈ s.data, data.keys.Nodup
  nodes : ∀ n ∈ Node.walkList s.layout.children, n.IsProperHere

theorem Screen.all_encode {s : Screen} (proper : s.IsProper) :
    ((Screen.fields.codec "ScreenWire").encode s).All Value.IsProper := by
  have data : ∀ data ∈ s.data, ((Codec.entries (DataField.fields.codec "DataField")).encode
      data).All Value.IsProper := fun data member =>
    Codec.all_encode_entries (proper.data data member) fun e _ => Codec.Plain.all_encode e.2
  have children : ((Codec.list Node.codec).encode s.layout.children).All Value.IsProper := by
    apply Codec.all_encode_list
    intro n member
    apply Node.all_toValue
    intro inner inside
    apply proper.nodes
    rw [Node.walkList_eq]
    exact List.mem_flatMap.mpr ⟨n, member, inside⟩
  have layout : ((Layout.fields.codec "Layout").encode s.layout).All Value.IsProper := by
    rw [all_encode_codec]
    simpa [Layout.fields] using children
  rw [all_encode_codec]
  simpa [Screen.fields, layout] using data

namespace Document

/-- The keys of the routing model are distinct, and all screens are proper. -/
structure IsProper (d : Document) : Prop where
  routing : ∀ model ∈ d.routingModel, model.keys.Nodup
  screens : ∀ s ∈ d.screens, s.IsProper

/-- A proper document is written as a proper value. -/
theorem all_encode {d : Document} (proper : d.IsProper) :
    (codec.encode d).All Value.IsProper := by
  have routing : ∀ model ∈ d.routingModel,
      ((Codec.entries (.list .text)).encode model).All Value.IsProper := fun model member =>
    Codec.all_encode_entries (proper.routing model member) fun e _ => Codec.Plain.all_encode e.2
  have screens : ((Codec.list (Screen.fields.codec "ScreenWire")).encode d.screens).All
      Value.IsProper :=
    Codec.all_encode_list fun s member => Screen.all_encode (proper.screens s member)
  unfold codec
  rw [all_encode_codec]
  simpa [fields, screens] using routing

end Document

end ScreenFlow.Flow
