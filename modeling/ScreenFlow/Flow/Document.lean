import ScreenFlow.Flow.Node

/-!
# Flow documents

A flow is the wire form of a design, the document that the messaging platform takes: its screens in
order, each with its layout and the data that it receives from earlier screens, and the screens that
each screen can lead to.
-/

namespace ScreenFlow.Flow

open ScreenFlow.Codec ScreenFlow.Json

/-- The version of the documents that are compiled. -/
def version : String := "7.3"

/-- The name of the form on every screen that has one. -/
def formName : String := "flow_path"

/-- The type of the layout of every screen. -/
def layoutType : String := "SingleColumnLayout"

/-- The declaration of a field that a screen receives. -/
structure DataField where
  kind : String
  sample : String
  deriving DecidableEq, Repr

def DataField.fields : Fields Tree DataField DataField :=
  DataField.mk
    <$> .required "type" .text DataField.kind
    <*> .required "__example__" .text DataField.sample

/-- The declaration of a text field. -/
def DataField.string (sample : String) : DataField := ⟨"string", sample⟩

/-- The nodes of a screen. -/
structure Layout where
  kind : String
  children : List Node
  deriving DecidableEq, Repr

def Layout.fields : Fields Tree Layout Layout :=
  Layout.mk
    <$> .required "type" .text Layout.kind
    <*> .required "children" (.list Node.codec) Layout.children

/-- The layout with one column. -/
def Layout.singleColumn (children : List Node) : Layout := ⟨layoutType, children⟩

/-- One screen of a document. -/
structure Screen where
  id : String
  title : String
  terminal : Option Bool
  success : Option Bool
  data : Option (Entries DataField)
  layout : Layout
  deriving DecidableEq, Repr

def Screen.fields : Fields Tree Screen Screen :=
  Screen.mk
    <$> .required "id" .text Screen.id
    <*> .required "title" .text Screen.title
    <*> .optional "terminal" .boolean Screen.terminal
    <*> .optional "success" .boolean Screen.success
    <*> .optional "data" (.entries (DataField.fields.codec "DataField")) Screen.data
    <*> .required "layout" (Layout.fields.codec "Layout") Screen.layout

/-- For the id of each screen the ids of the screens it can lead to. -/
abbrev RoutingModel := Entries (List String)

/-- A flow document. -/
structure Document where
  version : String
  routingModel : Option RoutingModel
  screens : List Screen
  deriving DecidableEq, Repr

namespace Document

def fields : Fields Tree Document Document :=
  Document.mk
    <$> .required "version" .text Document.version
    <*> .optional "routing_model" (.entries (.list .text)) Document.routingModel
    <*> .required "screens" (.list (Screen.fields.codec "ScreenWire")) Document.screens

def codec : Codec Document := fields.codec "FlowDocument"

/-- The first screen with an id. -/
def screen? (d : Document) (id : String) : Option Screen := d.screens.find? fun s => s.id == id

def toText (d : Document) (indented : Bool) : String := codec.toText d indented

/-- Reads a document from a text. -/
def ofText (text : String) : Except Fault Document := codec.ofText text

end Document

end ScreenFlow.Flow
