import ScreenFlow.Compile.Grouping
import ScreenFlow.Compile.Routing
import ScreenFlow.Design.Snapshot

/-!
# Compiling a flow

A list of screens with distinct ids compiles to one document. Each screen is compiled from itself
and the screens before it.
-/

namespace ScreenFlow.Compile

/-- Why there is no document. -/
inductive CompileError where
  | snapshot (error : Design.SnapshotError)
  /-- An id that an earlier screen has. -/
  | duplicateScreenId (id : String)
  deriving DecidableEq, Repr

def CompileError.message : CompileError → String
  | .snapshot error => error.message
  | .duplicateScreenId id => "Screen id '" ++ id ++ "' is used by more than one screen"

/-- Compiles a screen after the screens before it. -/
def compileScreen (previous : List Design.Screen) (screen : Design.Screen) : Flow.Screen :=
  let ctx := Context.ofScreen previous screen
  let schema := screenSchema screen ctx.priorFields
  let flag := if schema.terminal then some true else none
  { id := screen.id
    title := screen.title
    terminal := flag
    success := flag
    data := schema.data
    layout := .singleColumn (groupChildren (screen.elements.map (MappedElement.ofElement ctx))) }

/-- Compiles screens in order after the screens before them. -/
def compileScreens (previous : List Design.Screen) : List Design.Screen → List Flow.Screen
  | [] => []
  | s :: ss => compileScreen previous s :: compileScreens (previous ++ [s]) ss

/-- The first id that is among the seen ones or the id of an earlier screen. -/
def firstRepeatedId (seen : List String) : List Design.Screen → Option String
  | [] => none
  | s :: ss => if s.id ∈ seen then some s.id else firstRepeatedId (s.id :: seen) ss

/-- Compiles a list of screens, or names the first id that is used again. -/
def compileFlow (screens : List Design.Screen) : Except CompileError Flow.Document :=
  match firstRepeatedId [] screens with
  | some id => .error (.duplicateScreenId id)
  | none => .ok ⟨Flow.version, routingModel screens, compileScreens [] screens⟩

end ScreenFlow.Compile
