import ScreenFlow.DataSource
import ScreenFlow.Flow.Action

/-!
# Parts of a flow

A part is a node of a flow without children. Attributes that are unset are left out of its JSON
form; attributes that are set are written whatever their value. Each record lists its keys once.
-/

namespace ScreenFlow.Flow

open ScreenFlow.Codec ScreenFlow.Json

/-! ## Text -/

/-- A heading, a subheading or text with markup. -/
structure Line where
  text : String
  visible : Option Bool
  deriving DecidableEq, Repr

def Line.fields : Fields Tree Line Line :=
  Line.mk
    <$> .required "text" .text Line.text
    <*> .optional "visible" .boolean Line.visible

/-- Body text or a caption. -/
structure BodyText where
  text : String
  fontWeight : Option FontWeight
  strikethrough : Option Bool
  markdown : Option Bool
  visible : Option Bool
  deriving DecidableEq, Repr

def BodyText.fields : Fields Tree BodyText BodyText :=
  BodyText.mk
    <$> .required "text" .text BodyText.text
    <*> .optional "font-weight" FontWeight.codec BodyText.fontWeight
    <*> .optional "strikethrough" .boolean BodyText.strikethrough
    <*> .optional "markdown" .boolean BodyText.markdown
    <*> .optional "visible" .boolean BodyText.visible

/-! ## Inputs -/

/-- A line of input. -/
structure TextInput where
  label : String
  name : String
  inputType : Option InputType
  required : Option Bool
  minChars : Option UInt32
  maxChars : Option UInt32
  helperText : Option String
  initValue : Option String
  pattern : Option String
  enabled : Option Bool
  visible : Option Bool
  deriving DecidableEq, Repr

def TextInput.fields : Fields Tree TextInput TextInput :=
  TextInput.mk
    <$> .required "label" .text TextInput.label
    <*> .required "name" .text TextInput.name
    <*> .optional "input-type" InputType.codec TextInput.inputType
    <*> .optional "required" .boolean TextInput.required
    <*> .optional "min-chars" .word32 TextInput.minChars
    <*> .optional "max-chars" .word32 TextInput.maxChars
    <*> .optional "helper-text" .text TextInput.helperText
    <*> .optional "init-value" .text TextInput.initValue
    <*> .optional "pattern" .text TextInput.pattern
    <*> .optional "enabled" .boolean TextInput.enabled
    <*> .optional "visible" .boolean TextInput.visible

/-- Several lines of input. -/
structure TextArea where
  label : String
  name : String
  required : Option Bool
  maxLength : Option UInt32
  helperText : Option String
  initValue : Option String
  enabled : Option Bool
  visible : Option Bool
  deriving DecidableEq, Repr

def TextArea.fields : Fields Tree TextArea TextArea :=
  TextArea.mk
    <$> .required "label" .text TextArea.label
    <*> .required "name" .text TextArea.name
    <*> .optional "required" .boolean TextArea.required
    <*> .optional "max-length" .word32 TextArea.maxLength
    <*> .optional "helper-text" .text TextArea.helperText
    <*> .optional "init-value" .text TextArea.initValue
    <*> .optional "enabled" .boolean TextArea.enabled
    <*> .optional "visible" .boolean TextArea.visible

/-- A choice among options. -/
structure Selector where
  name : String
  label : String
  description : Option String
  dataSource : DataSource
  required : Option Bool
  minSelectedItems : Option UInt32
  maxSelectedItems : Option UInt32
  enabled : Option Bool
  visible : Option Bool
  onSelectAction : Option Action
  deriving DecidableEq, Repr

def Selector.fields : Fields Tree Selector Selector :=
  Selector.mk
    <$> .required "name" .text Selector.name
    <*> .required "label" .text Selector.label
    <*> .optional "description" .text Selector.description
    <*> .required "data-source" DataSource.codec Selector.dataSource
    <*> .optional "required" .boolean Selector.required
    <*> .optional "min-selected-items" .word32 Selector.minSelectedItems
    <*> .optional "max-selected-items" .word32 Selector.maxSelectedItems
    <*> .optional "enabled" .boolean Selector.enabled
    <*> .optional "visible" .boolean Selector.visible
    <*> .optional "on-select-action" Action.codec Selector.onSelectAction

/-- A box to tick. -/
structure OptIn where
  name : String
  label : String
  required : Option Bool
  visible : Option Bool
  onClickAction : Option Action
  deriving DecidableEq, Repr

def OptIn.fields : Fields Tree OptIn OptIn :=
  OptIn.mk
    <$> .required "name" .text OptIn.name
    <*> .required "label" .text OptIn.label
    <*> .optional "required" .boolean OptIn.required
    <*> .optional "visible" .boolean OptIn.visible
    <*> .optional "on-click-action" Action.codec OptIn.onClickAction

/-- A field for one date. -/
structure DatePicker where
  name : String
  label : String
  helperText : Option String
  required : Option Bool
  enabled : Option Bool
  visible : Option Bool
  minDate : Option String
  maxDate : Option String
  unavailableDates : Option (List String)
  initValue : Option String
  onSelectAction : Option Action
  deriving DecidableEq, Repr

def DatePicker.fields : Fields Tree DatePicker DatePicker :=
  DatePicker.mk
    <$> .required "name" .text DatePicker.name
    <*> .required "label" .text DatePicker.label
    <*> .optional "helper-text" .text DatePicker.helperText
    <*> .optional "required" .boolean DatePicker.required
    <*> .optional "enabled" .boolean DatePicker.enabled
    <*> .optional "visible" .boolean DatePicker.visible
    <*> .optional "min-date" .text DatePicker.minDate
    <*> .optional "max-date" .text DatePicker.maxDate
    <*> .optional "unavailable-dates" (.list .text) DatePicker.unavailableDates
    <*> .optional "init-value" .text DatePicker.initValue
    <*> .optional "on-select-action" Action.codec DatePicker.onSelectAction

/-- A calendar to pick dates from. -/
structure CalendarPicker where
  name : String
  label : String
  title : Option String
  description : Option String
  helperText : Option String
  required : Option Bool
  enabled : Option Bool
  visible : Option Bool
  mode : Option CalendarMode
  minDate : Option String
  maxDate : Option String
  unavailableDates : Option (List String)
  includeDays : Option (List String)
  minDays : Option UInt32
  maxDays : Option UInt32
  onSelectAction : Option Action
  deriving DecidableEq, Repr

def CalendarPicker.fields : Fields Tree CalendarPicker CalendarPicker :=
  CalendarPicker.mk
    <$> .required "name" .text CalendarPicker.name
    <*> .required "label" .text CalendarPicker.label
    <*> .optional "title" .text CalendarPicker.title
    <*> .optional "description" .text CalendarPicker.description
    <*> .optional "helper-text" .text CalendarPicker.helperText
    <*> .optional "required" .boolean CalendarPicker.required
    <*> .optional "enabled" .boolean CalendarPicker.enabled
    <*> .optional "visible" .boolean CalendarPicker.visible
    <*> .optional "mode" CalendarMode.codec CalendarPicker.mode
    <*> .optional "min-date" .text CalendarPicker.minDate
    <*> .optional "max-date" .text CalendarPicker.maxDate
    <*> .optional "unavailable-dates" (.list .text) CalendarPicker.unavailableDates
    <*> .optional "include-days" (.list .text) CalendarPicker.includeDays
    <*> .optional "min-days" .word32 CalendarPicker.minDays
    <*> .optional "max-days" .word32 CalendarPicker.maxDays
    <*> .optional "on-select-action" Action.codec CalendarPicker.onSelectAction

/-- A field for photos. -/
structure PhotoPicker where
  name : String
  label : String
  description : Option String
  photoSource : Option PhotoSource
  maxFileSizeKb : Option UInt32
  minUploadedPhotos : Option UInt32
  maxUploadedPhotos : Option UInt32
  enabled : Option Bool
  visible : Option Bool
  deriving DecidableEq, Repr

def PhotoPicker.fields : Fields Tree PhotoPicker PhotoPicker :=
  PhotoPicker.mk
    <$> .required "name" .text PhotoPicker.name
    <*> .required "label" .text PhotoPicker.label
    <*> .optional "description" .text PhotoPicker.description
    <*> .optional "photo-source" PhotoSource.codec PhotoPicker.photoSource
    <*> .optional "max-file-size-kb" .word32 PhotoPicker.maxFileSizeKb
    <*> .optional "min-uploaded-photos" .word32 PhotoPicker.minUploadedPhotos
    <*> .optional "max-uploaded-photos" .word32 PhotoPicker.maxUploadedPhotos
    <*> .optional "enabled" .boolean PhotoPicker.enabled
    <*> .optional "visible" .boolean PhotoPicker.visible

/-- A field for documents. -/
structure DocumentPicker where
  name : String
  label : String
  description : Option String
  maxFileSizeKb : Option UInt32
  minUploadedDocuments : Option UInt32
  maxUploadedDocuments : Option UInt32
  allowedMimeTypes : Option (List String)
  enabled : Option Bool
  visible : Option Bool
  deriving DecidableEq, Repr

def DocumentPicker.fields : Fields Tree DocumentPicker DocumentPicker :=
  DocumentPicker.mk
    <$> .required "name" .text DocumentPicker.name
    <*> .required "label" .text DocumentPicker.label
    <*> .optional "description" .text DocumentPicker.description
    <*> .optional "max-file-size-kb" .word32 DocumentPicker.maxFileSizeKb
    <*> .optional "min-uploaded-documents" .word32 DocumentPicker.minUploadedDocuments
    <*> .optional "max-uploaded-documents" .word32 DocumentPicker.maxUploadedDocuments
    <*> .optional "allowed-mime-types" (.list .text) DocumentPicker.allowedMimeTypes
    <*> .optional "enabled" .boolean DocumentPicker.enabled
    <*> .optional "visible" .boolean DocumentPicker.visible

/-! ## Pictures -/

/-- A picture. -/
structure Image where
  src : String
  width : Option UInt32
  height : Option UInt32
  scaleType : Option ScaleType
  aspectRatio : Option Binary64
  altText : Option String
  visible : Option Bool
  deriving DecidableEq, Repr

def Image.fields : Fields Tree Image Image :=
  Image.mk
    <$> .required "src" .text Image.src
    <*> .optional "width" .word32 Image.width
    <*> .optional "height" .word32 Image.height
    <*> .optional "scale-type" ScaleType.codec Image.scaleType
    <*> .optional "aspect-ratio" .float Image.aspectRatio
    <*> .optional "alt-text" .text Image.altText
    <*> .optional "visible" .boolean Image.visible

/-- One picture of a carousel. -/
structure CarouselImage where
  src : String
  altText : String
  deriving DecidableEq, Repr

def CarouselImage.fields : Fields Tree CarouselImage CarouselImage :=
  CarouselImage.mk
    <$> .required "src" .text CarouselImage.src
    <*> .required "alt-text" .text CarouselImage.altText

/-- Pictures that turn. -/
structure ImageCarousel where
  images : List CarouselImage
  aspectRatio : Option String
  scaleType : Option ScaleType
  visible : Option Bool
  deriving DecidableEq, Repr

def ImageCarousel.fields : Fields Tree ImageCarousel ImageCarousel :=
  ImageCarousel.mk
    <$> .required "images" (.list (CarouselImage.fields.codec "CarouselImageWire"))
      ImageCarousel.images
    <*> .optional "aspect-ratio" .text ImageCarousel.aspectRatio
    <*> .optional "scale-type" ScaleType.codec ImageCarousel.scaleType
    <*> .optional "visible" .boolean ImageCarousel.visible

/-! ## Navigation -/

/-- A link inside the text of a screen. -/
structure EmbeddedLink where
  text : String
  onClickAction : Option Action
  visible : Option Bool
  deriving DecidableEq, Repr

def EmbeddedLink.fields : Fields Tree EmbeddedLink EmbeddedLink :=
  EmbeddedLink.mk
    <$> .required "text" .text EmbeddedLink.text
    <*> .optional "on-click-action" Action.codec EmbeddedLink.onClickAction
    <*> .optional "visible" .boolean EmbeddedLink.visible

/-- What an item of a navigation list says. -/
structure MainContent where
  title : String
  description : Option String
  metadata : Option String
  deriving DecidableEq, Repr

def MainContent.fields : Fields Tree MainContent MainContent :=
  MainContent.mk
    <$> .required "title" .text MainContent.title
    <*> .optional "description" .text MainContent.description
    <*> .optional "metadata" .text MainContent.metadata

/-- One item of a navigation list. -/
structure NavigationItem where
  id : String
  mainContent : MainContent
  badge : Option String
  tags : Option (List String)
  onClickAction : Option Action
  deriving DecidableEq, Repr

def NavigationItem.fields : Fields Tree NavigationItem NavigationItem :=
  NavigationItem.mk
    <$> .required "id" .text NavigationItem.id
    <*> .required "main-content" (MainContent.fields.codec "MainContentWire")
      NavigationItem.mainContent
    <*> .optional "badge" .text NavigationItem.badge
    <*> .optional "tags" (.list .text) NavigationItem.tags
    <*> .optional "on-click-action" Action.codec NavigationItem.onClickAction

/-- A list of items to go on with. -/
structure NavigationList where
  name : String
  label : Option String
  description : Option String
  listItems : List NavigationItem
  mediaSize : Option MediaSize
  onClickAction : Option Action
  visible : Option Bool
  deriving DecidableEq, Repr

def NavigationList.fields : Fields Tree NavigationList NavigationList :=
  NavigationList.mk
    <$> .required "name" .text NavigationList.name
    <*> .optional "label" .text NavigationList.label
    <*> .optional "description" .text NavigationList.description
    <*> .required "list-items" (.list (NavigationItem.fields.codec "NavigationItemWire"))
      NavigationList.listItems
    <*> .optional "media-size" MediaSize.codec NavigationList.mediaSize
    <*> .optional "on-click-action" Action.codec NavigationList.onClickAction
    <*> .optional "visible" .boolean NavigationList.visible

/-- The button that ends a screen. -/
structure Footer where
  label : String
  leftCaption : Option String
  centerCaption : Option String
  rightCaption : Option String
  enabled : Option Bool
  onClickAction : Option Action
  deriving DecidableEq, Repr

def Footer.fields : Fields Tree Footer Footer :=
  Footer.mk
    <$> .required "label" .text Footer.label
    <*> .optional "left-caption" .text Footer.leftCaption
    <*> .optional "center-caption" .text Footer.centerCaption
    <*> .optional "right-caption" .text Footer.rightCaption
    <*> .optional "enabled" .boolean Footer.enabled
    <*> .optional "on-click-action" Action.codec Footer.onClickAction

/-! ## Parts -/

/-- What a line of text is shown as. -/
inductive LineStyle where
  | heading
  | subheading
  | rich
  deriving DecidableEq, Repr

/-- What body text is shown as. -/
inductive BodyStyle where
  | body
  | caption
  deriving DecidableEq, Repr

/-- How a choice among options is shown. -/
inductive SelectorStyle where
  | checkboxGroup
  | radioButtonsGroup
  | chipsSelector
  | dropdown
  deriving DecidableEq, Repr

/-- A node without children. -/
inductive Part where
  | line (style : LineStyle) (attrs : Line)
  | body (style : BodyStyle) (attrs : BodyText)
  | textInput (attrs : TextInput)
  | textArea (attrs : TextArea)
  | selector (style : SelectorStyle) (attrs : Selector)
  | optIn (attrs : OptIn)
  | embeddedLink (attrs : EmbeddedLink)
  | datePicker (attrs : DatePicker)
  | calendarPicker (attrs : CalendarPicker)
  | image (attrs : Image)
  | imageCarousel (attrs : ImageCarousel)
  | photoPicker (attrs : PhotoPicker)
  | documentPicker (attrs : DocumentPicker)
  | navigationList (attrs : NavigationList)
  | footer (attrs : Footer)
  deriving DecidableEq, Repr

/-- The type of a node. -/
inductive NodeType where
  | textHeading
  | textSubheading
  | textBody
  | textCaption
  | richText
  | textInput
  | textArea
  | checkboxGroup
  | radioButtonsGroup
  | chipsSelector
  | dropdown
  | optIn
  | embeddedLink
  | datePicker
  | calendarPicker
  | image
  | imageCarousel
  | photoPicker
  | documentPicker
  | navigationList
  | footer
  | ifBlock
  | switchBlock
  | form
  deriving DecidableEq, Repr

namespace NodeType

/-- Every type of node, in the order of the platform. -/
def all : List NodeType := [
  .textHeading, .textSubheading, .textBody, .textCaption, .richText, .textInput, .textArea,
  .checkboxGroup, .radioButtonsGroup, .chipsSelector, .dropdown, .optIn, .embeddedLink,
  .datePicker, .calendarPicker, .image, .imageCarousel, .photoPicker, .documentPicker,
  .navigationList, .footer, .ifBlock, .switchBlock, .form]

/-- The name of a type, which is the tag of its nodes. -/
def name : NodeType → String
  | .textHeading => "TextHeading"
  | .textSubheading => "TextSubheading"
  | .textBody => "TextBody"
  | .textCaption => "TextCaption"
  | .richText => "RichText"
  | .textInput => "TextInput"
  | .textArea => "TextArea"
  | .checkboxGroup => "CheckboxGroup"
  | .radioButtonsGroup => "RadioButtonsGroup"
  | .chipsSelector => "ChipsSelector"
  | .dropdown => "Dropdown"
  | .optIn => "OptIn"
  | .embeddedLink => "EmbeddedLink"
  | .datePicker => "DatePicker"
  | .calendarPicker => "CalendarPicker"
  | .image => "Image"
  | .imageCarousel => "ImageCarousel"
  | .photoPicker => "PhotoPicker"
  | .documentPicker => "DocumentPicker"
  | .navigationList => "NavigationList"
  | .footer => "Footer"
  | .ifBlock => "If"
  | .switchBlock => "Switch"
  | .form => "Form"

end NodeType

namespace Part

/-- The type of a part. -/
def nodeType : Part → NodeType
  | .line .heading _ => .textHeading
  | .line .subheading _ => .textSubheading
  | .line .rich _ => .richText
  | .body .body _ => .textBody
  | .body .caption _ => .textCaption
  | .textInput _ => .textInput
  | .textArea _ => .textArea
  | .selector .checkboxGroup _ => .checkboxGroup
  | .selector .radioButtonsGroup _ => .radioButtonsGroup
  | .selector .chipsSelector _ => .chipsSelector
  | .selector .dropdown _ => .dropdown
  | .optIn _ => .optIn
  | .embeddedLink _ => .embeddedLink
  | .datePicker _ => .datePicker
  | .calendarPicker _ => .calendarPicker
  | .image _ => .image
  | .imageCarousel _ => .imageCarousel
  | .photoPicker _ => .photoPicker
  | .documentPicker _ => .documentPicker
  | .navigationList _ => .navigationList
  | .footer _ => .footer

/-- The members that the attributes of a part are written as. -/
def members : Part → List (String × Value)
  | .line _ attrs => Line.fields.write attrs
  | .body _ attrs => BodyText.fields.write attrs
  | .textInput attrs => TextInput.fields.write attrs
  | .textArea attrs => TextArea.fields.write attrs
  | .selector _ attrs => Selector.fields.write attrs
  | .optIn attrs => OptIn.fields.write attrs
  | .embeddedLink attrs => EmbeddedLink.fields.write attrs
  | .datePicker attrs => DatePicker.fields.write attrs
  | .calendarPicker attrs => CalendarPicker.fields.write attrs
  | .image attrs => Image.fields.write attrs
  | .imageCarousel attrs => ImageCarousel.fields.write attrs
  | .photoPicker attrs => PhotoPicker.fields.write attrs
  | .documentPicker attrs => DocumentPicker.fields.write attrs
  | .navigationList attrs => NavigationList.fields.write attrs
  | .footer attrs => Footer.fields.write attrs

end Part

end ScreenFlow.Flow
