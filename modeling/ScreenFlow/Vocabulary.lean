import ScreenFlow.Codec.Basic

/-!
# Shared vocabulary

Small lists of names that attributes choose from, spelled alike in designs and in flow documents.
-/

namespace ScreenFlow

/-- What an action does. -/
inductive ActionName where
  | navigate
  | complete
  | dataExchange
  | updateData
  | openUrl
  deriving DecidableEq, Repr

def ActionName.name : ActionName → String
  | .navigate => "navigate"
  | .complete => "complete"
  | .dataExchange => "data_exchange"
  | .updateData => "update_data"
  | .openUrl => "open_url"

def ActionName.codec : Codec ActionName :=
  .choice [.navigate, .complete, .dataExchange, .updateData, .openUrl] ActionName.name

/-- The weight of body text. -/
inductive FontWeight where
  | bold
  | italic
  | boldItalic
  | normal
  deriving DecidableEq, Repr

def FontWeight.name : FontWeight → String
  | .bold => "bold"
  | .italic => "italic"
  | .boldItalic => "bold_italic"
  | .normal => "normal"

def FontWeight.codec : Codec FontWeight :=
  .choice [.bold, .italic, .boldItalic, .normal] FontWeight.name

/-- What a line of input takes. -/
inductive InputType where
  | text
  | number
  | email
  | password
  | passcode
  | phone
  deriving DecidableEq, Repr

def InputType.name : InputType → String
  | .text => "text"
  | .number => "number"
  | .email => "email"
  | .password => "password"
  | .passcode => "passcode"
  | .phone => "phone"

def InputType.codec : Codec InputType :=
  .choice [.text, .number, .email, .password, .passcode, .phone] InputType.name

/-- Whether a calendar gives one date or a range. -/
inductive CalendarMode where
  | single
  | range
  deriving DecidableEq, Repr

def CalendarMode.name : CalendarMode → String
  | .single => "single"
  | .range => "range"

def CalendarMode.codec : Codec CalendarMode := .choice [.single, .range] CalendarMode.name

/-- How an image fills its place. -/
inductive ScaleType where
  | cover
  | contain
  deriving DecidableEq, Repr

def ScaleType.name : ScaleType → String
  | .cover => "cover"
  | .contain => "contain"

def ScaleType.codec : Codec ScaleType := .choice [.cover, .contain] ScaleType.name

/-- Where a photo may come from. -/
inductive PhotoSource where
  | cameraGallery
  | camera
  | gallery
  deriving DecidableEq, Repr

def PhotoSource.name : PhotoSource → String
  | .cameraGallery => "camera_gallery"
  | .camera => "camera"
  | .gallery => "gallery"

def PhotoSource.codec : Codec PhotoSource :=
  .choice [.cameraGallery, .camera, .gallery] PhotoSource.name

/-- The size of the pictures in a list. -/
inductive MediaSize where
  | regular
  | large
  deriving DecidableEq, Repr

def MediaSize.name : MediaSize → String
  | .regular => "regular"
  | .large => "large"

def MediaSize.codec : Codec MediaSize := .choice [.regular, .large] MediaSize.name

end ScreenFlow
