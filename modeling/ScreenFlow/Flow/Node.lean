import ScreenFlow.Codec.TaggedUnion
import ScreenFlow.Flow.Part

/-!
# Nodes of a flow

A screen's layout is a list of nodes. A node is a part, a conditional node whose branches hold
nodes, or the form, which holds everything that is submitted.
-/

namespace ScreenFlow.Flow

open ScreenFlow.Codec ScreenFlow.Json

/-- One node of a screen's layout. -/
inductive Node where
  | part (p : Part)
  /-- Shows one of two branches; the second may be absent. -/
  | ifBlock (condition : String) (thenBranch : List Node) (elseBranch : Option (List Node))
  /-- Shows the branch whose name is the value. -/
  | switchBlock (value : String) (cases : List (String × List Node))
  /-- Holds the nodes that are submitted together. -/
  | form (name : String) (children : List Node)
  deriving Repr, Inhabited

/-- The attributes of an `If` with its branches in some forms. -/
structure IfParts (β γ : Type) where
  condition : String
  thenBranch : β
  elseBranch : γ

/-- The attributes of a `Switch` with its cases in some form. -/
structure SwitchParts (β : Type) where
  value : String
  cases : β

/-- The attributes of a form with its children in some form. -/
structure FormParts (β : Type) where
  name : String
  children : β

def ifFields :
    Fields (Slot Node) (IfParts Value (Option Value)) (IfParts (List Node) (Option (List Node))) :=
  IfParts.mk
    <$> (Fields.required "condition" .text IfParts.condition).comap Slot.tree
    <*> .requiredBranch "then" IfParts.thenBranch
    <*> .optionalBranch "else" IfParts.elseBranch

def switchFields : Fields (Slot Node) (SwitchParts Value) (SwitchParts (Entries (List Node))) :=
  SwitchParts.mk
    <$> (Fields.required "value" .text SwitchParts.value).comap Slot.tree
    <*> .requiredCases "cases" SwitchParts.cases

def formFields : Fields (Slot Node) (FormParts Value) (FormParts (List Node)) :=
  FormParts.mk
    <$> (Fields.required "name" .text FormParts.name).comap Slot.tree
    <*> .requiredBranch "children" FormParts.children

namespace Node

/-- The type of a node. -/
def nodeType : Node → NodeType
  | .part p => p.nodeType
  | .ifBlock _ _ _ => .ifBlock
  | .switchBlock _ _ => .switchBlock
  | .form _ _ => .form

/-- The name of a node's type. -/
def typeName (n : Node) : String := n.nodeType.name

/-! ## JSON form -/

/-- How the nodes of a type are read. -/
def variant (t : NodeType) : Variant Node :=
  match t with
  | .textHeading => .ofRecord t.name "TextWire" Line.fields (.part ∘ .line .heading)
  | .textSubheading => .ofRecord t.name "TextWire" Line.fields (.part ∘ .line .subheading)
  | .textBody => .ofRecord t.name "BodyTextWire" BodyText.fields (.part ∘ .body .body)
  | .textCaption => .ofRecord t.name "BodyTextWire" BodyText.fields (.part ∘ .body .caption)
  | .richText => .ofRecord t.name "TextWire" Line.fields (.part ∘ .line .rich)
  | .textInput => .ofRecord t.name "TextInputWire" TextInput.fields (.part ∘ .textInput)
  | .textArea => .ofRecord t.name "TextAreaWire" TextArea.fields (.part ∘ .textArea)
  | .checkboxGroup =>
    .ofRecord t.name "SelectorWire" Selector.fields (.part ∘ .selector .checkboxGroup)
  | .radioButtonsGroup =>
    .ofRecord t.name "SelectorWire" Selector.fields (.part ∘ .selector .radioButtonsGroup)
  | .chipsSelector =>
    .ofRecord t.name "SelectorWire" Selector.fields (.part ∘ .selector .chipsSelector)
  | .dropdown => .ofRecord t.name "SelectorWire" Selector.fields (.part ∘ .selector .dropdown)
  | .optIn => .ofRecord t.name "OptInWire" OptIn.fields (.part ∘ .optIn)
  | .embeddedLink =>
    .ofRecord t.name "EmbeddedLinkWire" EmbeddedLink.fields (.part ∘ .embeddedLink)
  | .datePicker => .ofRecord t.name "DatePickerWire" DatePicker.fields (.part ∘ .datePicker)
  | .calendarPicker =>
    .ofRecord t.name "CalendarPickerWire" CalendarPicker.fields (.part ∘ .calendarPicker)
  | .image => .ofRecord t.name "ImageWire" Image.fields (.part ∘ .image)
  | .imageCarousel =>
    .ofRecord t.name "ImageCarouselWire" ImageCarousel.fields (.part ∘ .imageCarousel)
  | .photoPicker => .ofRecord t.name "PhotoPickerWire" PhotoPicker.fields (.part ∘ .photoPicker)
  | .documentPicker =>
    .ofRecord t.name "DocumentPickerWire" DocumentPicker.fields (.part ∘ .documentPicker)
  | .navigationList =>
    .ofRecord t.name "NavigationListWire" NavigationList.fields (.part ∘ .navigationList)
  | .footer => .ofRecord t.name "FooterWire" Footer.fields (.part ∘ .footer)
  | .ifBlock => .ofParts t.name "IfWire" ifFields fun parts =>
    .ifBlock parts.condition parts.thenBranch parts.elseBranch
  | .switchBlock => .ofParts t.name "SwitchWire" switchFields fun parts =>
    .switchBlock parts.value parts.cases
  | .form => .ofParts t.name "FormWire" formFields fun parts => .form parts.name parts.children

/-- The union of all types of nodes. -/
def union : TaggedUnion Node := ⟨"ElementWire", NodeType.all.map variant⟩

/-- The object of a node's type and the members of its attributes. -/
def tagged (t : NodeType) (members : List (String × Value)) : Value :=
  .object ((tagKey, .string t.name) :: members)

mutual

/-- The JSON value of a node. -/
def toValue : Node → Value
  | .part p => tagged p.nodeType p.members
  | .ifBlock condition thenBranch none =>
    tagged .ifBlock (ifFields.write ⟨condition, .array (listValues thenBranch), none⟩)
  | .ifBlock condition thenBranch (some elseBranch) =>
    tagged .ifBlock (ifFields.write
      ⟨condition, .array (listValues thenBranch), some (.array (listValues elseBranch))⟩)
  | .switchBlock value cases =>
    tagged .switchBlock (switchFields.write ⟨value, .object (caseValues cases)⟩)
  | .form name children =>
    tagged .form (formFields.write ⟨name, .array (listValues children)⟩)
termination_by structural n => n

/-- The JSON values of a list of nodes. -/
def listValues : List Node → List Value
  | [] => []
  | n :: ns => toValue n :: listValues ns
termination_by structural ns => ns

/-- The members of cases. -/
def caseValues : List (String × List Node) → List (String × Value)
  | [] => []
  | (name, ns) :: cs => (name, .array (listValues ns)) :: caseValues cs
termination_by structural cs => cs

end

def codec : Codec Node := ⟨toValue, union.decodeWhole⟩

/-! ## Everything inside a node -/

mutual

/-- A node and everything inside it, each node before its children. -/
def walk : Node → List Node
  | .part p => [.part p]
  | .ifBlock condition thenBranch none =>
    .ifBlock condition thenBranch none :: walkList thenBranch
  | .ifBlock condition thenBranch (some elseBranch) =>
    .ifBlock condition thenBranch (some elseBranch) :: walkList thenBranch ++ walkList elseBranch
  | .switchBlock value cases => .switchBlock value cases :: walkCases cases
  | .form name children => .form name children :: walkList children
termination_by structural n => n

/-- The walks of a list of nodes one after the other. -/
def walkList : List Node → List Node
  | [] => []
  | n :: ns => walk n ++ walkList ns
termination_by structural ns => ns

/-- The walks of cases one after the other. -/
def walkCases : List (String × List Node) → List Node
  | [] => []
  | (_, ns) :: cs => walkList ns ++ walkCases cs
termination_by structural cs => cs

end

/-! ## Equality -/

mutual

def decEq : (a b : Node) → Decidable (a = b)
  | .part p, .part q => if h : p = q then isTrue (by rw [h]) else isFalse (by simp [h])
  | .ifBlock c t none, .ifBlock c' t' none =>
    if hc : c = c' then
      match decEqList t t' with
      | isTrue ht => isTrue (by rw [hc, ht])
      | isFalse ht => isFalse (by simp [ht])
    else isFalse (by simp [hc])
  | .ifBlock c t (some e), .ifBlock c' t' (some e') =>
    if hc : c = c' then
      match decEqList t t', decEqList e e' with
      | isTrue ht, isTrue he => isTrue (by rw [hc, ht, he])
      | isFalse ht, _ => isFalse (by simp [ht])
      | _, isFalse he => isFalse (by simp [he])
    else isFalse (by simp [hc])
  | .switchBlock v cs, .switchBlock v' cs' =>
    if hv : v = v' then
      match decEqCases cs cs' with
      | isTrue h => isTrue (by rw [hv, h])
      | isFalse h => isFalse (by simp [h])
    else isFalse (by simp [hv])
  | .form n ns, .form n' ns' =>
    if hn : n = n' then
      match decEqList ns ns' with
      | isTrue h => isTrue (by rw [hn, h])
      | isFalse h => isFalse (by simp [h])
    else isFalse (by simp [hn])
  | .ifBlock _ _ none, .ifBlock _ _ (some _) | .ifBlock _ _ (some _), .ifBlock _ _ none
  | .part _, .ifBlock _ _ _ | .part _, .switchBlock _ _ | .part _, .form _ _
  | .ifBlock _ _ _, .part _ | .ifBlock _ _ _, .switchBlock _ _ | .ifBlock _ _ _, .form _ _
  | .switchBlock _ _, .part _ | .switchBlock _ _, .ifBlock _ _ _ | .switchBlock _ _, .form _ _
  | .form _ _, .part _ | .form _ _, .ifBlock _ _ _ | .form _ _, .switchBlock _ _ =>
    isFalse (by simp)
termination_by structural a => a

def decEqList : (a b : List Node) → Decidable (a = b)
  | [], [] => isTrue rfl
  | a :: as, b :: bs =>
    match decEq a b, decEqList as bs with
    | isTrue h, isTrue g => isTrue (by rw [h, g])
    | isFalse h, _ => isFalse (by simp [h])
    | _, isFalse h => isFalse (by simp [h])
  | [], _ :: _ | _ :: _, [] => isFalse (by simp)
termination_by structural a => a

def decEqCases : (a b : List (String × List Node)) → Decidable (a = b)
  | [], [] => isTrue rfl
  | (k, a) :: as, (l, b) :: bs =>
    if hk : k = l then
      match decEqList a b, decEqCases as bs with
      | isTrue h, isTrue g => isTrue (by rw [hk, h, g])
      | isFalse h, _ => isFalse (by simp [h])
      | _, isFalse h => isFalse (by simp [h])
    else isFalse (by simp [hk])
  | [], _ :: _ | _ :: _, [] => isFalse (by simp)
termination_by structural a => a

end

instance : DecidableEq Node := decEq

end Node

end ScreenFlow.Flow
