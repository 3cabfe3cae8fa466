import ScreenFlow.Codec.Fields
import ScreenFlow.Vocabulary

/-!
# Actions of a flow

An action as the messaging platform takes it: the screen to go to is an object of its own.
-/

namespace ScreenFlow.Flow

open ScreenFlow.Codec ScreenFlow.Json

/-- Where an action leads. -/
structure NextScreen where
  kind : String
  name : String
  deriving DecidableEq, Repr

def NextScreen.fields : Fields Tree NextScreen NextScreen :=
  NextScreen.mk
    <$> .required "type" .text NextScreen.kind
    <*> .required "name" .text NextScreen.name

/-- The place that is the screen of an id. -/
def NextScreen.screen (id : String) : NextScreen := ⟨"screen", id⟩

/-- An action of a flow. -/
structure Action where
  name : ActionName
  next : Option NextScreen
  url : Option String
  payload : Option (Entries Value)
  deriving DecidableEq, Repr

def Action.fields : Fields Tree Action Action :=
  Action.mk
    <$> .required "name" ActionName.codec Action.name
    <*> .optional "next" (NextScreen.fields.codec "NextScreen") Action.next
    <*> .optional "url" .text Action.url
    <*> .optional "payload" (.entries .value) Action.payload

def Action.codec : Codec Action := fields.codec "ActionWire"

end ScreenFlow.Flow
