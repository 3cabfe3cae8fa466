import ScreenFlow.DataSource
import ScreenFlow.Design.Action
import ScreenFlow.Design.Kind

/-!
# Widgets

A widget is an element without branches. Every widget is a record of attributes; several kinds share
one record and differ in a style. Each record lists its keys once, for writing and for reading.
-/

namespace ScreenFlow.Design

open ScreenFlow.Codec ScreenFlow.Json

/-! ## Text -/

/-- A heading or subheading. -/
structure Heading where
  text : String
  visible : Option Bool
  deriving DecidableEq, Repr

def Heading.fields : Fields Tree Heading Heading :=
  Heading.mk
    <$> .defaulted "text" "" .text Heading.text
    <*> .nullable "visible" .boolean Heading.visible

/-- Body text or a caption. -/
structure BodyText where
  text : String
  fontWeight : Option FontWeight
  strikethrough : Option Bool
  markdown : Option Bool
  visible : Option Bool
  deriving DecidableEq, Repr

def BodyText.fields : Fields Tree BodyText BodyText :=
  BodyText.mk
    <$> .defaulted "text" "" .text BodyText.text
    <*> .nullable "fontWeight" FontWeight.codec BodyText.fontWeight
    <*> .nullable "strikethrough" .boolean BodyText.strikethrough
    <*> .nullable "markdown" .boolean BodyText.markdown
    <*> .nullable "visible" .boolean BodyText.visible

/-- Text with markup. -/
structure RichText where
  text : String
  visible : Option Bool
  deriving DecidableEq, Repr

def RichText.fields : Fields Tree RichText RichText :=
  RichText.mk
    <$> .defaulted "text" "" .text RichText.text
    <*> .nullable "visible" .boolean RichText.visible

/-! ## Inputs -/

/-- A line of input. -/
structure TextInput where
  label : String
  name : String
  inputType : Option InputType
  required : Option Bool
  minChars : Option UInt32
  maxChars : Option UInt32
  helperText : Option String
  initValue : Option String
  pattern : Option String
  enabled : Option Bool
  visible : Option Bool
  deriving DecidableEq, Repr

def TextInput.fields : Fields Tree TextInput TextInput :=
  TextInput.mk
    <$> .defaulted "label" "" .text TextInput.label
    <*> .defaulted "name" "" .text TextInput.name
    <*> .nullable "inputType" InputType.codec TextInput.inputType
    <*> .nullable "required" .boolean TextInput.required
    <*> .nullable "minChars" .word32 TextInput.minChars
    <*> .nullable "maxChars" .word32 TextInput.maxChars
    <*> .nullable "helperText" .text TextInput.helperText
    <*> .nullable "initValue" .text TextInput.initValue
    <*> .nullable "pattern" .text TextInput.pattern
    <*> .nullable "enabled" .boolean TextInput.enabled
    <*> .nullable "visible" .boolean TextInput.visible

/-- Several lines of input. -/
structure TextArea where
  label : String
  name : String
  required : Option Bool
  maxLength : Option UInt32
  helperText : Option String
  initValue : Option String
  enabled : Option Bool
  visible : Option Bool
  deriving DecidableEq, Repr

def TextArea.fields : Fields Tree TextArea TextArea :=
  TextArea.mk
    <$> .defaulted "label" "" .text TextArea.label
    <*> .defaulted "name" "" .text TextArea.name
    <*> .nullable "required" .boolean TextArea.required
    <*> .nullable "maxLength" .word32 TextArea.maxLength
    <*> .nullable "helperText" .text TextArea.helperText
    <*> .nullable "initValue" .text TextArea.initValue
    <*> .nullable "enabled" .boolean TextArea.enabled
    <*> .nullable "visible" .boolean TextArea.visible

/-- A choice among options. -/
structure Selector where
  label : String
  name : String
  description : Option String
  dataSource : DataSource
  required : Option Bool
  minSelectedItems : Option UInt32
  maxSelectedItems : Option UInt32
  enabled : Option Bool
  visible : Option Bool
  onSelectAction : Option Action
  deriving DecidableEq, Repr

def Selector.fields : Fields Tree Selector Selector :=
  Selector.mk
    <$> .defaulted "label" "" .text Selector.label
    <*> .defaulted "name" "" .text Selector.name
    <*> .nullable "description" .text Selector.description
    <*> .defaulted "dataSource" .empty DataSource.codec Selector.dataSource
    <*> .nullable "required" .boolean Selector.required
    <*> .nullable "minSelectedItems" .word32 Selector.minSelectedItems
    <*> .nullable "maxSelectedItems" .word32 Selector.maxSelectedItems
    <*> .nullable "enabled" .boolean Selector.enabled
    <*> .nullable "visible" .boolean Selector.visible
    <*> .nullable "onSelectAction" Action.codec Selector.onSelectAction

/-- A box to tick. -/
structure OptIn where
  label : String
  name : String
  required : Option Bool
  visible : Option Bool
  onClickAction : Option Action
  deriving DecidableEq, Repr

def OptIn.fields : Fields Tree OptIn OptIn :=
  OptIn.mk
    <$> .defaulted "label" "" .text OptIn.label
    <*> .defaulted "name" "" .text OptIn.name
    <*> .nullable "required" .boolean OptIn.required
    <*> .nullable "visible" .boolean OptIn.visible
    <*> .nullable "onClickAction" Action.codec OptIn.onClickAction

/-- A field for one date. -/
structure DatePicker where
  label : String
  name : String
  helperText : Option String
  required : Option Bool
  enabled : Option Bool
  visible : Option Bool
  minDate : Option String
  maxDate : Option String
  unavailableDates : Option (List String)
  initValue : Option String
  onSelectAction : Option Action
  deriving DecidableEq, Repr

def DatePicker.fields : Fields Tree DatePicker DatePicker :=
  DatePicker.mk
    <$> .defaulted "label" "" .text DatePicker.label
    <*> .defaulted "name" "" .text DatePicker.name
    <*> .nullable "helperText" .text DatePicker.helperText
    <*> .nullable "required" .boolean DatePicker.required
    <*> .nullable "enabled" .boolean DatePicker.enabled
    <*> .nullable "visible" .boolean DatePicker.visible
    <*> .nullable "minDate" .text DatePicker.minDate
    <*> .nullable "maxDate" .text DatePicker.maxDate
    <*> .nullable "unavailableDates" (.list .text) DatePicker.unavailableDates
    <*> .nullable "initValue" .text DatePicker.initValue
    <*> .nullable "onSelectAction" Action.codec DatePicker.onSelectAction

/-- A calendar to pick dates from. -/
structure CalendarPicker where
  label : String
  name : String
  title : Option String
  description : Option String
  helperText : Option String
  required : Option Bool
  enabled : Option Bool
  visible : Option Bool
  mode : Option CalendarMode
  minDate : Option String
  maxDate : Option String
  unavailableDates : Option (List String)
  includeDays : Option (List String)
  minDays : Option UInt32
  maxDays : Option UInt32
  onSelectAction : Option Action
  deriving DecidableEq, Repr

def CalendarPicker.fields : Fields Tree CalendarPicker CalendarPicker :=
  CalendarPicker.mk
    <$> .defaulted "label" "" .text CalendarPicker.label
    <*> .defaulted "name" "" .text CalendarPicker.name
    <*> .nullable "title" .text CalendarPicker.title
    <*> .nullable "description" .text CalendarPicker.description
    <*> .nullable "helperText" .text CalendarPicker.helperText
    <*> .nullable "required" .boolean CalendarPicker.required
    <*> .nullable "enabled" .boolean CalendarPicker.enabled
    <*> .nullable "visible" .boolean CalendarPicker.visible
    <*> .nullable "mode" CalendarMode.codec CalendarPicker.mode
    <*> .nullable "minDate" .text CalendarPicker.minDate
    <*> .nullable "maxDate" .text CalendarPicker.maxDate
    <*> .nullable "unavailableDates" (.list .text) CalendarPicker.unavailableDates
    <*> .nullable "includeDays" (.list .text) CalendarPicker.includeDays
    <*> .nullable "minDays" .word32 CalendarPicker.minDays
    <*> .nullable "maxDays" .word32 CalendarPicker.maxDays
    <*> .nullable "onSelectAction" Action.codec CalendarPicker.onSelectAction

/-- A field for photos. -/
structure PhotoPicker where
  label : String
  name : String
  description : Option String
  photoSource : Option PhotoSource
  maxFileSizeKb : Option UInt32
  minUploadedPhotos : Option UInt32
  maxUploadedPhotos : Option UInt32
  enabled : Option Bool
  visible : Option Bool
  deriving DecidableEq, Repr

def PhotoPicker.fields : Fields Tree PhotoPicker PhotoPicker :=
  PhotoPicker.mk
    <$> .defaulted "label" "" .text PhotoPicker.label
    <*> .defaulted "name" "" .text PhotoPicker.name
    <*> .nullable "description" .text PhotoPicker.description
    <*> .nullable "photoSource" PhotoSource.codec PhotoPicker.photoSource
    <*> .nullable "maxFileSizeKb" .word32 PhotoPicker.maxFileSizeKb
    <*> .nullable "minUploadedPhotos" .word32 PhotoPicker.minUploadedPhotos
    <*> .nullable "maxUploadedPhotos" .word32 PhotoPicker.maxUploadedPhotos
    <*> .nullable "enabled" .boolean PhotoPicker.enabled
    <*> .nullable "visible" .boolean PhotoPicker.visible

/-- A field for documents. -/
structure DocumentPicker where
  label : String
  name : String
  description : Option String
  maxFileSizeKb : Option UInt32
  minUploadedDocuments : Option UInt32
  maxUploadedDocuments : Option UInt32
  allowedMimeTypes : Option (List String)
  enabled : Option Bool
  visible : Option Bool
  deriving DecidableEq, Repr

def DocumentPicker.fields : Fields Tree DocumentPicker DocumentPicker :=
  DocumentPicker.mk
    <$> .defaulted "label" "" .text DocumentPicker.label
    <*> .defaulted "name" "" .text DocumentPicker.name
    <*> .nullable "description" .text DocumentPicker.description
    <*> .nullable "maxFileSizeKb" .word32 DocumentPicker.maxFileSizeKb
    <*> .nullable "minUploadedDocuments" .word32 DocumentPicker.minUploadedDocuments
    <*> .nullable "maxUploadedDocuments" .word32 DocumentPicker.maxUploadedDocuments
    <*> .nullable "allowedMimeTypes" (.list .text) DocumentPicker.allowedMimeTypes
    <*> .nullable "enabled" .boolean DocumentPicker.enabled
    <*> .nullable "visible" .boolean DocumentPicker.visible

/-! ## Pictures -/

/-- A picture. -/
structure Image where
  src : String
  width : Option UInt32
  height : Option UInt32
  scaleType : Option ScaleType
  aspectRatio : Option Binary64
  altText : Option String
  visible : Option Bool
  deriving DecidableEq, Repr

def Image.fields : Fields Tree Image Image :=
  Image.mk
    <$> .defaulted "src" "" .text Image.src
    <*> .nullable "width" .word32 Image.width
    <*> .nullable "height" .word32 Image.height
    <*> .nullable "scaleType" ScaleType.codec Image.scaleType
    <*> .nullable "aspectRatio" .float Image.aspectRatio
    <*> .nullable "altText" .text Image.altText
    <*> .nullable "visible" .boolean Image.visible

/-- One picture of a carousel. -/
structure CarouselImage where
  src : String
  altText : String
  deriving DecidableEq, Repr

def CarouselImage.fields : Fields Tree CarouselImage CarouselImage :=
  CarouselImage.mk
    <$> .required "src" .text CarouselImage.src
    <*> .defaulted "altText" "" .text CarouselImage.altText

/-- Pictures that turn. -/
structure ImageCarousel where
  images : List CarouselImage
  aspectRatio : Option String
  scaleType : Option ScaleType
  visible : Option Bool
  deriving DecidableEq, Repr

def ImageCarousel.fields : Fields Tree ImageCarousel ImageCarousel :=
  ImageCarousel.mk
    <$> .defaulted "images" [] (.list (CarouselImage.fields.codec "CarouselImage"))
      ImageCarousel.images
    <*> .nullable "aspectRatio" .text ImageCarousel.aspectRatio
    <*> .nullable "scaleType" ScaleType.codec ImageCarousel.scaleType
    <*> .nullable "visible" .boolean ImageCarousel.visible

/-! ## Navigation -/

/-- A link inside the text of a screen. -/
structure EmbeddedLink where
  text : String
  onClickAction : Option Action
  visible : Option Bool
  deriving DecidableEq, Repr

def EmbeddedLink.fields : Fields Tree EmbeddedLink EmbeddedLink :=
  EmbeddedLink.mk
    <$> .defaulted "text" "" .text EmbeddedLink.text
    <*> .nullable "onClickAction" Action.codec EmbeddedLink.onClickAction
    <*> .nullable "visible" .boolean EmbeddedLink.visible

/-- One item of a navigation list. -/
structure NavigationItem where
  id : String
  title : String
  description : Option String
  metadata : Option String
  badge : Option String
  tags : Option (List String)
  onClickAction : Option Action
  deriving DecidableEq, Repr

def NavigationItem.fields : Fields Tree NavigationItem NavigationItem :=
  NavigationItem.mk
    <$> .required "id" .text NavigationItem.id
    <*> .defaulted "title" "" .text NavigationItem.title
    <*> .nullable "description" .text NavigationItem.description
    <*> .nullable "metadata" .text NavigationItem.metadata
    <*> .nullable "badge" .text NavigationItem.badge
    <*> .nullable "tags" (.list .text) NavigationItem.tags
    <*> .nullable "onClickAction" Action.codec NavigationItem.onClickAction

/-- A list of items to go on with. -/
structure NavigationList where
  name : String
  label : Option String
  description : Option String
  items : List NavigationItem
  mediaSize : Option MediaSize
  /-- The action of the list, besides those of its items. -/
  onClickAction : Option Action
  visible : Option Bool
  deriving DecidableEq, Repr

def NavigationList.fields : Fields Tree NavigationList NavigationList :=
  NavigationList.mk
    <$> .defaulted "name" "" .text NavigationList.name
    <*> .nullable "label" .text NavigationList.label
    <*> .nullable "description" .text NavigationList.description
    <*> .defaulted "items" [] (.list (NavigationItem.fields.codec "NavigationItem"))
      NavigationList.items
    <*> .nullable "mediaSize" MediaSize.codec NavigationList.mediaSize
    <*> .nullable "onClickAction" Action.codec NavigationList.onClickAction
    <*> .nullable "visible" .boolean NavigationList.visible

/-- The button that ends a screen. -/
structure Footer where
  label : String
  leftCaption : Option String
  centerCaption : Option String
  rightCaption : Option String
  enabled : Option Bool
  onClickAction : Option Action
  deriving DecidableEq, Repr

def Footer.fields : Fields Tree Footer Footer :=
  Footer.mk
    <$> .defaulted "label" "" .text Footer.label
    <*> .nullable "leftCaption" .text Footer.leftCaption
    <*> .nullable "centerCaption" .text Footer.centerCaption
    <*> .nullable "rightCaption" .text Footer.rightCaption
    <*> .nullable "enabled" .boolean Footer.enabled
    <*> .nullable "onClickAction" Action.codec Footer.onClickAction

def Footer.completesFlow (f : Footer) : Bool :=
  match f.onClickAction with
  | some action => action.name = .complete
  | none => false

/-! ## Widgets -/

/-- The two sizes of a heading. -/
inductive HeadingLevel where
  | heading
  | subheading
  deriving DecidableEq, Repr

/-- The two styles of body text. -/
inductive BodyStyle where
  | body
  | caption
  deriving DecidableEq, Repr

/-- What a line of input is for. -/
inductive InputPurpose where
  | plain
  | email
  | password
  | phone
  deriving DecidableEq, Repr

/-- How a choice among options is shown. -/
inductive SelectorStyle where
  | checkboxGroup
  | radioButtonsGroup
  | chipsSelector
  | dropdown
  deriving DecidableEq, Repr

/-- An element without branches. -/
inductive Widget where
  | heading (level : HeadingLevel) (heading : Heading)
  | body (style : BodyStyle) (body : BodyText)
  | richText (text : RichText)
  | textInput (purpose : InputPurpose) (input : TextInput)
  | textArea (area : TextArea)
  | selector (style : SelectorStyle) (selector : Selector)
  | optIn (optIn : OptIn)
  | embeddedLink (link : EmbeddedLink)
  | datePicker (picker : DatePicker)
  | calendarPicker (picker : CalendarPicker)
  | image (image : Image)
  | imageCarousel (carousel : ImageCarousel)
  | photoPicker (picker : PhotoPicker)
  | documentPicker (picker : DocumentPicker)
  | navigationList (list : NavigationList)
  | footer (footer : Footer)
  deriving DecidableEq, Repr

namespace Widget

def kind : Widget → Kind
  | .heading .heading _ => .textHeading
  | .heading .subheading _ => .textSubheading
  | .body .body _ => .textBody
  | .body .caption _ => .textCaption
  | .richText _ => .richText
  | .textInput .plain _ => .textInput
  | .textInput .email _ => .emailInput
  | .textInput .password _ => .passwordInput
  | .textInput .phone _ => .phoneInput
  | .textArea _ => .textArea
  | .selector .checkboxGroup _ => .checkboxGroup
  | .selector .radioButtonsGroup _ => .radioButtonsGroup
  | .selector .chipsSelector _ => .chipsSelector
  | .selector .dropdown _ => .dropdown
  | .optIn _ => .optIn
  | .embeddedLink _ => .embeddedLink
  | .datePicker _ => .datePicker
  | .calendarPicker _ => .calendarPicker
  | .image _ => .image
  | .imageCarousel _ => .imageCarousel
  | .photoPicker _ => .photoPicker
  | .documentPicker _ => .documentPicker
  | .navigationList _ => .navigationList
  | .footer _ => .footer

/-- The members that the attributes of a widget are written as. -/
def members : Widget → List (String × Value)
  | .heading _ attrs => Heading.fields.write attrs
  | .body _ attrs => BodyText.fields.write attrs
  | .richText attrs => RichText.fields.write attrs
  | .textInput _ attrs => TextInput.fields.write attrs
  | .textArea attrs => TextArea.fields.write attrs
  | .selector _ attrs => Selector.fields.write attrs
  | .optIn attrs => OptIn.fields.write attrs
  | .embeddedLink attrs => EmbeddedLink.fields.write attrs
  | .datePicker attrs => DatePicker.fields.write attrs
  | .calendarPicker attrs => CalendarPicker.fields.write attrs
  | .image attrs => Image.fields.write attrs
  | .imageCarousel attrs => ImageCarousel.fields.write attrs
  | .photoPicker attrs => PhotoPicker.fields.write attrs
  | .documentPicker attrs => DocumentPicker.fields.write attrs
  | .navigationList attrs => NavigationList.fields.write attrs
  | .footer attrs => Footer.fields.write attrs

/-- The name attribute of an input, as it stands. -/
def inputName? : Widget → Option String
  | .textInput _ attrs => some attrs.name
  | .textArea attrs => some attrs.name
  | .selector _ attrs => some attrs.name
  | .optIn attrs => some attrs.name
  | .datePicker attrs => some attrs.name
  | .calendarPicker attrs => some attrs.name
  | .photoPicker attrs => some attrs.name
  | .documentPicker attrs => some attrs.name
  | .heading _ _ | .body _ _ | .richText _ | .embeddedLink _ | .image _ | .imageCarousel _
  | .navigationList _ | .footer _ => none

/-- The name under which a widget's value is submitted, if it gives one. -/
def fieldName? (w : Widget) : Option String := w.inputName?.filter fun name => !name.isEmpty

/-- The ids of the screens that a widget can lead to, in order. -/
def navigationTargets : Widget → List String
  | .footer attrs => (attrs.onClickAction.bind Action.target?).toList
  | .navigationList attrs =>
    (attrs.items.filterMap NavigationItem.onClickAction ++ attrs.onClickAction.toList).filterMap
      Action.target?
  | _ => []

end Widget

end ScreenFlow.Design
