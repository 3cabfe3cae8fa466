import ScreenFlow.Codec.TaggedUnion
import ScreenFlow.Design.Widget

/-!
# Elements

An element is a widget or a control element, whose branches hold further elements. Everything that
looks into branches is a structural recursion with one function for an element, one for a branch and
one for cases.
-/

namespace ScreenFlow.Design

open ScreenFlow.Codec ScreenFlow.Json

/-- One unit of a screen as the designer holds it. -/
inductive Element where
  | widget (w : Widget)
  /-- Shows one of two branches. -/
  | ifBlock (condition : String) (thenBranch elseBranch : List Element)
  /-- Shows the branch whose name is the value. -/
  | switchBlock (value : String) (cases : List (String × List Element))
  deriving Repr, Inhabited

/-- The attributes of an `If` with its branches in some form. -/
structure IfParts (β : Type) where
  condition : String
  thenBranch : β
  elseBranch : β

/-- The attributes of a `Switch` with its cases in some form. -/
structure SwitchParts (β : Type) where
  value : String
  cases : β

def ifFields : Fields (Slot Element) (IfParts Value) (IfParts (List Element)) :=
  IfParts.mk
    <$> (Fields.defaulted "condition" "" .text IfParts.condition).comap Slot.tree
    <*> .defaultedBranch "then" IfParts.thenBranch
    <*> .defaultedBranch "else" IfParts.elseBranch

def switchFields :
    Fields (Slot Element) (SwitchParts Value) (SwitchParts (Entries (List Element))) :=
  SwitchParts.mk
    <$> (Fields.defaulted "value" "" .text SwitchParts.value).comap Slot.tree
    <*> .defaultedCases "cases" SwitchParts.cases

namespace Element

def kind : Element → Kind
  | .widget w => w.kind
  | .ifBlock _ _ _ => .ifBlock
  | .switchBlock _ _ => .switchBlock

/-! ## JSON form -/

/-- How the elements of a kind are read. -/
def variant (k : Kind) : Variant Element :=
  match k with
  | .textHeading => .ofRecord k.name "HeadingText" Heading.fields (.widget ∘ .heading .heading)
  | .textSubheading =>
    .ofRecord k.name "HeadingText" Heading.fields (.widget ∘ .heading .subheading)
  | .textBody => .ofRecord k.name "BodyText" BodyText.fields (.widget ∘ .body .body)
  | .textCaption => .ofRecord k.name "BodyText" BodyText.fields (.widget ∘ .body .caption)
  | .richText => .ofRecord k.name "RichText" RichText.fields (.widget ∘ .richText)
  | .textInput => .ofRecord k.name "TextInput" TextInput.fields (.widget ∘ .textInput .plain)
  | .emailInput => .ofRecord k.name "TextInput" TextInput.fields (.widget ∘ .textInput .email)
  | .passwordInput => .ofRecord k.name "TextInput" TextInput.fields (.widget ∘ .textInput .password)
  | .phoneInput => .ofRecord k.name "TextInput" TextInput.fields (.widget ∘ .textInput .phone)
  | .textArea => .ofRecord k.name "TextArea" TextArea.fields (.widget ∘ .textArea)
  | .checkboxGroup =>
    .ofRecord k.name "Selector" Selector.fields (.widget ∘ .selector .checkboxGroup)
  | .radioButtonsGroup =>
    .ofRecord k.name "Selector" Selector.fields (.widget ∘ .selector .radioButtonsGroup)
  | .chipsSelector =>
    .ofRecord k.name "Selector" Selector.fields (.widget ∘ .selector .chipsSelector)
  | .dropdown => .ofRecord k.name "Selector" Selector.fields (.widget ∘ .selector .dropdown)
  | .optIn => .ofRecord k.name "OptIn" OptIn.fields (.widget ∘ .optIn)
  | .embeddedLink => .ofRecord k.name "EmbeddedLink" EmbeddedLink.fields (.widget ∘ .embeddedLink)
  | .datePicker => .ofRecord k.name "DatePicker" DatePicker.fields (.widget ∘ .datePicker)
  | .calendarPicker =>
    .ofRecord k.name "CalendarPicker" CalendarPicker.fields (.widget ∘ .calendarPicker)
  | .image => .ofRecord k.name "Image" Image.fields (.widget ∘ .image)
  | .imageCarousel =>
    .ofRecord k.name "ImageCarousel" ImageCarousel.fields (.widget ∘ .imageCarousel)
  | .photoPicker => .ofRecord k.name "PhotoPicker" PhotoPicker.fields (.widget ∘ .photoPicker)
  | .documentPicker =>
    .ofRecord k.name "DocumentPicker" DocumentPicker.fields (.widget ∘ .documentPicker)
  | .navigationList =>
    .ofRecord k.name "NavigationList" NavigationList.fields (.widget ∘ .navigationList)
  | .footer => .ofRecord k.name "Footer" Footer.fields (.widget ∘ .footer)
  | .ifBlock => .ofParts k.name "IfBlock" ifFields fun parts =>
    .ifBlock parts.condition parts.thenBranch parts.elseBranch
  | .switchBlock => .ofParts k.name "SwitchBlock" switchFields fun parts =>
    .switchBlock parts.value parts.cases

/-- The union of all kinds of elements. -/
def union : TaggedUnion Element := ⟨"Element", Kind.all.map variant⟩

/-- The object of an element's kind and the members of its attributes. -/
def tagged (k : Kind) (members : List (String × Value)) : Value :=
  .object ((tagKey, .string k.name) :: members)

mutual

/-- The JSON value of an element. -/
def toValue : Element → Value
  | .widget w => tagged w.kind w.members
  | .ifBlock condition thenBranch elseBranch =>
    tagged .ifBlock (ifFields.write
      ⟨condition, .array (branchValues thenBranch), .array (branchValues elseBranch)⟩)
  | .switchBlock value cases =>
    tagged .switchBlock (switchFields.write ⟨value, .object (caseValues cases)⟩)
termination_by structural e => e

/-- The JSON values of a branch. -/
def branchValues : List Element → List Value
  | [] => []
  | e :: es => toValue e :: branchValues es
termination_by structural es => es

/-- The members of cases. -/
def caseValues : List (String × List Element) → List (String × Value)
  | [] => []
  | (name, es) :: cs => (name, .array (branchValues es)) :: caseValues cs
termination_by structural cs => cs

end

def codec : Codec Element := ⟨toValue, union.decodeWhole⟩

/-! ## Branches -/

/-- The elements directly inside a control element, in order; other elements have none. -/
def branches : Element → List Element
  | .widget _ => []
  | .ifBlock _ thenBranch elseBranch => thenBranch ++ elseBranch
  | .switchBlock _ cases => cases.flatMap Prod.snd

mutual

/-- An element and everything inside its branches, each element before its branches. -/
def walk : Element → List Element
  | .widget w => [.widget w]
  | .ifBlock condition thenBranch elseBranch =>
    .ifBlock condition thenBranch elseBranch :: walkBranch thenBranch ++ walkBranch elseBranch
  | .switchBlock value cases => .switchBlock value cases :: walkCases cases
termination_by structural e => e

/-- The walks of a branch one after the other. -/
def walkBranch : List Element → List Element
  | [] => []
  | e :: es => walk e ++ walkBranch es
termination_by structural es => es

/-- The walks of cases one after the other. -/
def walkCases : List (String × List Element) → List Element
  | [] => []
  | (_, es) :: cs => walkBranch es ++ walkCases cs
termination_by structural cs => cs

end

mutual

/-- Whether an element belongs into the form: it is or can show an input or a footer. -/
def isFormClass : Element → Bool
  | .widget w => w.kind.role != .static
  | .ifBlock _ thenBranch elseBranch => anyFormClass thenBranch || anyFormClass elseBranch
  | .switchBlock _ cases => anyFormClassCase cases
termination_by structural e => e

def anyFormClass : List Element → Bool
  | [] => false
  | e :: es => isFormClass e || anyFormClass es
termination_by structural es => es

def anyFormClassCase : List (String × List Element) → Bool
  | [] => false
  | (_, es) :: cs => anyFormClass es || anyFormClassCase cs
termination_by structural cs => cs

end

/-! ## One element alone -/

def isFooter : Element → Bool
  | .widget (.footer _) => true
  | _ => false

def isEmbeddedLink : Element → Bool
  | .widget (.embeddedLink _) => true
  | _ => false

def completesFlow : Element → Bool
  | .widget (.footer footer) => footer.completesFlow
  | _ => false

/-- The name under which an element's value is submitted, if it gives one. -/
def fieldName? : Element → Option String
  | .widget w => w.fieldName?
  | _ => none

/-- The ids of the screens that an element, without its branches, can lead to, in order. -/
def navigationTargets : Element → List String
  | .widget w => w.navigationTargets
  | _ => []

end Element

end ScreenFlow.Design
