import ScreenFlow.Codec.Fields
import ScreenFlow.Text.Blank

/-!
# Options of a selector

The options to select from are listed, or named by a reference to data that the flow receives. They
have one JSON form in designs and in flow documents.
-/

namespace ScreenFlow

open ScreenFlow.Codec ScreenFlow.Json

/-- One option of a selector. -/
structure SelectOption where
  id : String
  title : String
  description : Option String
  metadata : Option String
  enabled : Option Bool
  deriving DecidableEq, Repr

def SelectOption.fields : Fields Tree SelectOption SelectOption :=
  SelectOption.mk
    <$> .required "id" .text SelectOption.id
    <*> .required "title" .text SelectOption.title
    <*> .optional "description" .text SelectOption.description
    <*> .optional "metadata" .text SelectOption.metadata
    <*> .optional "enabled" .boolean SelectOption.enabled

/-- Where the options of a selector come from. -/
inductive DataSource where
  | options (list : List SelectOption)
  | reference (name : String)
  deriving DecidableEq, Repr

namespace DataSource

/-- No options. -/
def empty : DataSource := .options []

/-- Whether there are no options and no reference to any. -/
def isEmpty : DataSource → Bool
  | .options list => list.isEmpty
  | .reference name => Text.isBlank name

def optionsCodec : Codec (List SelectOption) := .list (SelectOption.fields.codec "SelectOption")

/-- The JSON form: an array of options or a text; any fault inside is one and the same. -/
def codec : Codec DataSource where
  encode source := match source with
    | .options list => optionsCodec.encode list
    | .reference name => .string name
  decode _ t := match t with
    | .string name => .ok (.reference name)
    | t =>
      match optionsCodec.decode .held t with
      | .ok list => .ok (.options list)
      | .error _ => .error (.noVariant "DataSource")

end DataSource

end ScreenFlow
