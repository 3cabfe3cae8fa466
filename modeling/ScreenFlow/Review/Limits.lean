import ScreenFlow.Codec.Fields

/-!
# Limits

The table that counts and lengths are checked against. Every entry has a default, so a configuration
names only what it changes.
-/

namespace ScreenFlow.Review

open ScreenFlow.Codec ScreenFlow.Json

/-- The limits of a review. Lengths count characters; a percentage is of the limit it goes with. -/
structure Limits where
  headingText : UInt64
  bodyText : UInt64
  captionText : UInt64
  captionWarningPercent : UInt64
  richText : UInt64
  inputLabel : UInt64
  helperText : UInt64
  embeddedLinkText : UInt64
  navigationListItems : UInt64
  componentsPerScreen : UInt64
  componentsWarningPercent : UInt64
  formComponentsPerScreen : UInt64
  embeddedLinksPerScreen : UInt64
  footersPerScreen : UInt64
  screensPerDocument : UInt64
  deriving DecidableEq, Repr

/-- A percentage of a limit, rounded down. The product stops at the greatest 64-bit word. -/
def percentOf (limit percent : UInt64) : UInt64 :=
  UInt64.ofNat (min (limit.toNat * percent.toNat) (UInt64.size - 1) / 100)

namespace Limits

/-- The limits where nothing else is said. -/
def default : Limits where
  headingText := 80
  bodyText := 4096
  captionText := 400
  captionWarningPercent := 90
  richText := 4096
  inputLabel := 40
  helperText := 80
  embeddedLinkText := 25
  navigationListItems := 20
  componentsPerScreen := 50
  componentsWarningPercent := 80
  formComponentsPerScreen := 20
  embeddedLinksPerScreen := 2
  footersPerScreen := 1
  screensPerDocument := 20

/-- An entry that has its default when it is not there. -/
def entry (name : String) (get : Limits → UInt64) : Fields Tree Limits UInt64 :=
  .defaulted name (get default) .word64 get

/-- The entries of the table. -/
def fields : Fields Tree Limits Limits :=
  Limits.mk
    <$> entry "heading_text" headingText
    <*> entry "body_text" bodyText
    <*> entry "caption_text" captionText
    <*> entry "caption_warning_percent" captionWarningPercent
    <*> entry "rich_text" richText
    <*> entry "input_label" inputLabel
    <*> entry "helper_text" helperText
    <*> entry "embedded_link_text" embeddedLinkText
    <*> entry "navigation_list_items" navigationListItems
    <*> entry "components_per_screen" componentsPerScreen
    <*> entry "components_warning_percent" componentsWarningPercent
    <*> entry "form_components_per_screen" formComponentsPerScreen
    <*> entry "embedded_links_per_screen" embeddedLinksPerScreen
    <*> entry "footers_per_screen" footersPerScreen
    <*> entry "screens_per_document" screensPerDocument

def codec : Codec Limits := fields.codec "Limits"

def toText (l : Limits) (indented : Bool) : String := codec.toText l indented

/-- Reads the table from a text. -/
def ofText (text : String) : Except Fault Limits := codec.ofText text

/-- The length of a caption above which there is a warning. -/
def captionWarningThreshold (l : Limits) : UInt64 := percentOf l.captionText l.captionWarningPercent

/-- The number of components above which there is a warning. -/
def componentsWarningThreshold (l : Limits) : UInt64 :=
  percentOf l.componentsPerScreen l.componentsWarningPercent

end Limits

end ScreenFlow.Review
