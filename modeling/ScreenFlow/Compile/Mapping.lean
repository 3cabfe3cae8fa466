import ScreenFlow.Compile.Schema

/-!
# From elements to nodes

Every element becomes one node. Attributes are copied; what differs is said in one place each: the
purpose of a line of input becomes its input type, only selectors that take several options keep
their bounds, an empty second branch is left out, and a footer that leaves the screen submits the
fields of the form.
-/

namespace ScreenFlow.Compile

open ScreenFlow.Codec ScreenFlow.Json
open ScreenFlow.Design (NamedField)

/-! ## Context -/

/-- What a footer submits: the fields of its screen and those of the screens before. -/
structure Context where
  currentFields : List NamedField
  priorFields : List NamedField
  deriving DecidableEq, Repr

namespace Context

/-- No fields at all. -/
def empty : Context := ⟨[], []⟩

/-- The context of a screen after other screens. -/
def ofScreen (previous : List Design.Screen) (screen : Design.Screen) : Context :=
  ⟨screen.namedFields, collectNamedFields previous⟩

end Context

/-! ## Actions -/

/-- An expression that the platform replaces by a value. -/
def reference (scope name : String) : Value :=
  .string ("$\x7b" ++ scope ++ "." ++ name ++ "\x7d")

/-- The expression for the value of a field on the current screen. -/
def formReference (name : String) : Value := reference "form" name

/-- The expression for data that the screen received. -/
def dataReference (name : String) : Value := reference "data" name

/-- Maps an action; only a navigating action with a target has a next screen. -/
def mapAction (action : Design.Action) : Flow.Action where
  name := action.name
  next := action.target?.map Flow.NextScreen.screen
  url := action.url
  payload := action.payload

/--
What a footer submits: references to the fields of the screen and, when the flow completes, to the
data of the screens before; then the entries of the design whose keys are not taken.
-/
def footerPayload (action : Design.Action) (ctx : Context) : Entries Value :=
  let current := ctx.currentFields.map fun f => (f.name, formReference f.name)
  let prior := ctx.priorFields.map fun f => (f.name, dataReference f.name)
  let submitted := Entries.putAllNew [] current
  let submitted := if action.name = .complete then submitted.putAllNew prior else submitted
  submitted.putAllNew (action.payload.getD [])

/-- Maps the action of a footer: navigating and completing submit the form. -/
def mapFooterAction (ctx : Context) (action : Design.Action) : Flow.Action :=
  match action.name with
  | .navigate | .complete => { mapAction action with payload := some (footerPayload action ctx) }
  | _ => mapAction action

/-! ## Widgets -/

def mapBody (body : Design.BodyText) : Flow.BodyText where
  text := body.text
  fontWeight := body.fontWeight
  strikethrough := body.strikethrough
  markdown := body.markdown
  visible := body.visible

/-- The input type of a line of input: that of its purpose, or the one it names. -/
def inputType (purpose : Design.InputPurpose) (named : Option InputType) : Option InputType :=
  match purpose with
  | .plain => named
  | .email => some .email
  | .password => some .password
  | .phone => some .phone

def mapTextInput (purpose : Design.InputPurpose) (input : Design.TextInput) : Flow.TextInput where
  label := input.label
  name := input.name
  inputType := inputType purpose input.inputType
  required := input.required
  minChars := input.minChars
  maxChars := input.maxChars
  helperText := input.helperText
  initValue := input.initValue
  pattern := input.pattern
  enabled := input.enabled
  visible := input.visible

def mapTextArea (area : Design.TextArea) : Flow.TextArea where
  label := area.label
  name := area.name
  required := area.required
  maxLength := area.maxLength
  helperText := area.helperText
  initValue := area.initValue
  enabled := area.enabled
  visible := area.visible

def selectorStyle : Design.SelectorStyle → Flow.SelectorStyle
  | .checkboxGroup => .checkboxGroup
  | .radioButtonsGroup => .radioButtonsGroup
  | .chipsSelector => .chipsSelector
  | .dropdown => .dropdown

/-- Whether a selector takes several options. -/
def takesSeveral : Design.SelectorStyle → Bool
  | .checkboxGroup | .chipsSelector => true
  | .radioButtonsGroup | .dropdown => false

/-- Maps a selector; bounds on the number of options are for selectors that take several. -/
def mapSelector (style : Design.SelectorStyle) (selector : Design.Selector) : Flow.Selector where
  name := selector.name
  label := selector.label
  description := selector.description
  dataSource := selector.dataSource
  required := selector.required
  minSelectedItems := if takesSeveral style then selector.minSelectedItems else none
  maxSelectedItems := if takesSeveral style then selector.maxSelectedItems else none
  enabled := selector.enabled
  visible := selector.visible
  onSelectAction := selector.onSelectAction.map mapAction

def mapOptIn (optIn : Design.OptIn) : Flow.OptIn where
  name := optIn.name
  label := optIn.label
  required := optIn.required
  visible := optIn.visible
  onClickAction := optIn.onClickAction.map mapAction

def mapEmbeddedLink (link : Design.EmbeddedLink) : Flow.EmbeddedLink where
  text := link.text
  onClickAction := link.onClickAction.map mapAction
  visible := link.visible

def mapDatePicker (picker : Design.DatePicker) : Flow.DatePicker where
  name := picker.name
  label := picker.label
  helperText := picker.helperText
  required := picker.required
  enabled := picker.enabled
  visible := picker.visible
  minDate := picker.minDate
  maxDate := picker.maxDate
  unavailableDates := picker.unavailableDates
  initValue := picker.initValue
  onSelectAction := picker.onSelectAction.map mapAction

def mapCalendarPicker (picker : Design.CalendarPicker) : Flow.CalendarPicker where
  name := picker.name
  label := picker.label
  title := picker.title
  description := picker.description
  helperText := picker.helperText
  required := picker.required
  enabled := picker.enabled
  visible := picker.visible
  mode := picker.mode
  minDate := picker.minDate
  maxDate := picker.maxDate
  unavailableDates := picker.unavailableDates
  includeDays := picker.includeDays
  minDays := picker.minDays
  maxDays := picker.maxDays
  onSelectAction := picker.onSelectAction.map mapAction

def mapImage (image : Design.Image) : Flow.Image where
  src := image.src
  width := image.width
  height := image.height
  scaleType := image.scaleType
  aspectRatio := image.aspectRatio
  altText := image.altText
  visible := image.visible

def mapImageCarousel (carousel : Design.ImageCarousel) : Flow.ImageCarousel where
  images := carousel.images.map fun image => ⟨image.src, image.altText⟩
  aspectRatio := carousel.aspectRatio
  scaleType := carousel.scaleType
  visible := carousel.visible

def mapPhotoPicker (picker : Design.PhotoPicker) : Flow.PhotoPicker where
  name := picker.name
  label := picker.label
  description := picker.description
  photoSource := picker.photoSource
  maxFileSizeKb := picker.maxFileSizeKb
  minUploadedPhotos := picker.minUploadedPhotos
  maxUploadedPhotos := picker.maxUploadedPhotos
  enabled := picker.enabled
  visible := picker.visible

def mapDocumentPicker (picker : Design.DocumentPicker) : Flow.DocumentPicker where
  name := picker.name
  label := picker.label
  description := picker.description
  maxFileSizeKb := picker.maxFileSizeKb
  minUploadedDocuments := picker.minUploadedDocuments
  maxUploadedDocuments := picker.maxUploadedDocuments
  allowedMimeTypes := picker.allowedMimeTypes
  enabled := picker.enabled
  visible := picker.visible

/-- Maps an item of a navigation list; what it says becomes an object of its own. -/
def mapNavigationItem (item : Design.NavigationItem) : Flow.NavigationItem where
  id := item.id
  mainContent := ⟨item.title, item.description, item.metadata⟩
  badge := item.badge
  tags := item.tags
  onClickAction := item.onClickAction.map mapAction

def mapNavigationList (list : Design.NavigationList) : Flow.NavigationList where
  name := list.name
  label := list.label
  description := list.description
  listItems := list.items.map mapNavigationItem
  mediaSize := list.mediaSize
  onClickAction := list.onClickAction.map mapAction
  visible := list.visible

def mapFooter (ctx : Context) (footer : Design.Footer) : Flow.Footer where
  label := footer.label
  leftCaption := footer.leftCaption
  centerCaption := footer.centerCaption
  rightCaption := footer.rightCaption
  enabled := footer.enabled
  onClickAction := footer.onClickAction.map (mapFooterAction ctx)

/-- Maps a widget to the part that shows it. -/
def mapWidget (ctx : Context) : Design.Widget → Flow.Part
  | .heading .heading attrs => .line .heading ⟨attrs.text, attrs.visible⟩
  | .heading .subheading attrs => .line .subheading ⟨attrs.text, attrs.visible⟩
  | .body .body attrs => .body .body (mapBody attrs)
  | .body .caption attrs => .body .caption (mapBody attrs)
  | .richText attrs => .line .rich ⟨attrs.text, attrs.visible⟩
  | .textInput purpose attrs => .textInput (mapTextInput purpose attrs)
  | .textArea attrs => .textArea (mapTextArea attrs)
  | .selector style attrs => .selector (selectorStyle style) (mapSelector style attrs)
  | .optIn attrs => .optIn (mapOptIn attrs)
  | .embeddedLink attrs => .embeddedLink (mapEmbeddedLink attrs)
  | .datePicker attrs => .datePicker (mapDatePicker attrs)
  | .calendarPicker attrs => .calendarPicker (mapCalendarPicker attrs)
  | .image attrs => .image (mapImage attrs)
  | .imageCarousel attrs => .imageCarousel (mapImageCarousel attrs)
  | .photoPicker attrs => .photoPicker (mapPhotoPicker attrs)
  | .documentPicker attrs => .documentPicker (mapDocumentPicker attrs)
  | .navigationList attrs => .navigationList (mapNavigationList attrs)
  | .footer attrs => .footer (mapFooter ctx attrs)

/-! ## Elements -/

mutual

/-- Maps an element to its node. -/
def mapElement (ctx : Context) : Design.Element → Flow.Node
  | .widget w => .part (mapWidget ctx w)
  | .ifBlock condition thenBranch elseBranch =>
    .ifBlock condition (mapBranch ctx thenBranch)
      (if elseBranch.isEmpty then none else some (mapBranch ctx elseBranch))
  | .switchBlock value cases => .switchBlock value (mapCases ctx cases)
termination_by structural e => e

def mapBranch (ctx : Context) : List Design.Element → List Flow.Node
  | [] => []
  | e :: es => mapElement ctx e :: mapBranch ctx es
termination_by structural es => es

def mapCases (ctx : Context) : List (String × List Design.Element) → List (String × List Flow.Node)
  | [] => []
  | (name, es) :: cs => (name, mapBranch ctx es) :: mapCases ctx cs
termination_by structural cs => cs

end

end ScreenFlow.Compile
