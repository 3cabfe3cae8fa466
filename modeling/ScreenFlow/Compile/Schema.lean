import ScreenFlow.Design.Screen
import ScreenFlow.Flow.Document

/-!
# Inherited data

A screen receives the fields of the screens before it. A screen that completes the flow declares an
empty schema instead and inherits nothing.
-/

namespace ScreenFlow.Compile

open ScreenFlow.Design (NamedField)

/-- The fields of screens; a name that several screens declare counts where it comes first. -/
def collectNamedFields (screens : List Design.Screen) : List NamedField :=
  firsts NamedField.name (screens.flatMap Design.Screen.namedFields)

/-- For each inherited field its name and declaration. -/
abbrev DataSchema := Entries Flow.DataField

/-- The schema of the fields of earlier screens, if there are any. -/
def inheritedSchema (prior : List NamedField) : Option DataSchema :=
  let schema := Entries.ofMembers (prior.map fun f => (f.name, Flow.DataField.string f.sample))
  if schema.isEmpty then none else some schema

/-- Whether a screen completes the flow, and the data it declares. -/
structure ScreenSchema where
  terminal : Bool
  data : Option DataSchema
  deriving DecidableEq, Repr

/-- The schema of a screen after screens with the given fields. -/
def screenSchema (screen : Design.Screen) (prior : List NamedField) : ScreenSchema :=
  if screen.isTerminal then ⟨true, some []⟩ else ⟨false, inheritedSchema prior⟩

end ScreenFlow.Compile
