import ScreenFlow.Design.Element
import ScreenFlow.Distinct

/-!
# Screens

A design is what the editor holds: screens, each of them one page of a form. The fields and
navigation targets of a screen are gathered over all its elements, however deep in branches, and
listed in the order in which they come first.
-/

namespace ScreenFlow.Design

open ScreenFlow.Codec ScreenFlow.Json

/-- One page of a form. -/
structure Screen where
  id : String
  title : String
  elements : List Element
  deriving Repr, Inhabited

/-- A field that a screen declares: its name and the kind of the element that gives it. -/
structure NamedField where
  name : String
  kind : Kind
  deriving DecidableEq, Repr

/-- The sample value of a field. -/
def NamedField.sample (f : NamedField) : String := f.kind.sample?.getD ""

/-- The field that an element declares. -/
def Element.namedField? (e : Element) : Option NamedField :=
  e.fieldName?.map fun name => ⟨name, e.kind⟩

namespace Screen

def fields : Fields Tree Screen Screen :=
  Screen.mk
    <$> .required "id" .text Screen.id
    <*> .defaulted "title" "" .text Screen.title
    <*> .defaulted "elements" [] (.list Element.codec) Screen.elements

def listCodec : Codec (List Screen) := .list (fields.codec "Screen")

/-- All elements of a screen, each before those in its branches. -/
def walk (s : Screen) : List Element := s.elements.flatMap Element.walk

/-- The fields of a screen; a name that is declared twice counts where it comes first. -/
def namedFields (s : Screen) : List NamedField :=
  firsts NamedField.name (s.walk.filterMap Element.namedField?)

/-- Whether a footer of the screen completes the flow. -/
def isTerminal (s : Screen) : Bool := s.walk.any Element.completesFlow

/-- The ids of the screens that a screen can lead to. -/
def navigationTargets (s : Screen) : List String :=
  firsts (fun target => target) (s.walk.flatMap Element.navigationTargets)

end Screen

end ScreenFlow.Design
