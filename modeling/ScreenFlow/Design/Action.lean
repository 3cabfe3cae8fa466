import ScreenFlow.Codec.Fields
import ScreenFlow.Vocabulary

/-!
# Actions of a design

What happens when a footer, a link, a list item or a selector is used.
-/

namespace ScreenFlow.Design

open ScreenFlow.Codec ScreenFlow.Json

/-- An action as the designer holds it. -/
structure Action where
  name : ActionName
  /-- The id of the screen to go to, when the action navigates. -/
  next : Option String
  /-- The address to open, when the action opens one. -/
  url : Option String
  payload : Option (Entries Value)
  deriving DecidableEq, Repr

namespace Action

def fields : Fields Tree Action Action :=
  Action.mk
    <$> .required "name" ActionName.codec Action.name
    <*> .nullable "next" .text Action.next
    <*> .nullable "url" .text Action.url
    <*> .nullable "payload" (.entries .value) Action.payload

def codec : Codec Action := fields.codec "Action"

/-- The id of the screen that a navigating action leads to, unless it is empty. -/
def target? (a : Action) : Option String :=
  match a.name with
  | .navigate => a.next.filter fun id => !id.isEmpty
  | _ => none

end Action

end ScreenFlow.Design
