/-!
# Kinds of elements

The kinds of elements a designer can place on a screen, each with its name in snapshots, its role in
a form and the sample value that stands for a field of that kind.
-/

namespace ScreenFlow.Design

/-- How an element takes part in a form. -/
inductive Role where
  /-- Shown only, never inside the form. -/
  | static
  /-- Gives a named value that is submitted with the form. -/
  | input
  /-- Submits the form. -/
  | footer
  /-- Shows some of its elements; its role follows from theirs. -/
  | control
  deriving DecidableEq, Repr

def Role.name : Role → String
  | .static => "Static"
  | .input => "Input"
  | .footer => "Footer"
  | .control => "Control"

/-- The kind of an element. -/
inductive Kind where
  | textHeading
  | textSubheading
  | textBody
  | textCaption
  | richText
  | textInput
  | emailInput
  | passwordInput
  | phoneInput
  | textArea
  | checkboxGroup
  | radioButtonsGroup
  | chipsSelector
  | dropdown
  | optIn
  | embeddedLink
  | datePicker
  | calendarPicker
  | image
  | imageCarousel
  | photoPicker
  | documentPicker
  | navigationList
  | footer
  | ifBlock
  | switchBlock
  deriving DecidableEq, Repr

namespace Kind

/-- Every kind, in the order of the designer. -/
def all : List Kind := [
  .textHeading, .textSubheading, .textBody, .textCaption, .richText, .textInput, .emailInput,
  .passwordInput, .phoneInput, .textArea, .checkboxGroup, .radioButtonsGroup, .chipsSelector,
  .dropdown, .optIn, .embeddedLink, .datePicker, .calendarPicker, .image, .imageCarousel,
  .photoPicker, .documentPicker, .navigationList, .footer, .ifBlock, .switchBlock]

/-- The name of a kind, which is the tag of its elements. -/
def name : Kind → String
  | .textHeading => "TextHeading"
  | .textSubheading => "TextSubheading"
  | .textBody => "TextBody"
  | .textCaption => "TextCaption"
  | .richText => "RichText"
  | .textInput => "TextInput"
  | .emailInput => "EmailInput"
  | .passwordInput => "PasswordInput"
  | .phoneInput => "PhoneInput"
  | .textArea => "TextArea"
  | .checkboxGroup => "CheckboxGroup"
  | .radioButtonsGroup => "RadioButtonsGroup"
  | .chipsSelector => "ChipsSelector"
  | .dropdown => "Dropdown"
  | .optIn => "OptIn"
  | .embeddedLink => "EmbeddedLink"
  | .datePicker => "DatePicker"
  | .calendarPicker => "CalendarPicker"
  | .image => "Image"
  | .imageCarousel => "ImageCarousel"
  | .photoPicker => "PhotoPicker"
  | .documentPicker => "DocumentPicker"
  | .navigationList => "NavigationList"
  | .footer => "Footer"
  | .ifBlock => "If"
  | .switchBlock => "Switch"

def ofName? (name : String) : Option Kind := all.find? fun k => k.name == name

/-- The role of a kind. -/
def role : Kind → Role
  | .textHeading | .textSubheading | .textBody | .textCaption | .richText | .embeddedLink | .image
  | .imageCarousel | .navigationList => .static
  | .textInput | .emailInput | .passwordInput | .phoneInput | .textArea | .checkboxGroup
  | .radioButtonsGroup | .chipsSelector | .dropdown | .optIn | .datePicker | .calendarPicker
  | .photoPicker | .documentPicker => .input
  | .footer => .footer
  | .ifBlock | .switchBlock => .control

/-- The sample value of photo and document pickers: one uploaded item. -/
def uploadSample : String := "[\x7b\"file_name\":\"example\",\"media_id\":\"0\"\x7d]"

/-- The sample value of a field of this kind; kinds that never name a field have none. -/
def sample? : Kind → Option String
  | .textInput | .textArea => some "Example text"
  | .emailInput => some "user@example.com"
  | .passwordInput => some "password"
  | .phoneInput => some "+15550100"
  | .checkboxGroup | .chipsSelector => some "[\"option_1\"]"
  | .radioButtonsGroup | .dropdown => some "option_1"
  | .optIn => some "true"
  | .datePicker | .calendarPicker => some "2024-01-01"
  | .photoPicker | .documentPicker => some uploadSample
  | .textHeading | .textSubheading | .textBody | .textCaption | .richText | .embeddedLink | .image
  | .imageCarousel | .navigationList | .footer | .ifBlock | .switchBlock => none

end Kind

end ScreenFlow.Design
