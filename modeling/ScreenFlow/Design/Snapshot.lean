import ScreenFlow.Design.Screen

/-!
# Snapshots

A snapshot is the designer's JSON text: a list of screens, bare or inside an object. Its screens are
taken apart first, then every element has its kind checked, branches included, and is read. The
first element that fails, in the order of the text, decides the error; nothing is read in part.
-/

namespace ScreenFlow.Design

open ScreenFlow.Codec ScreenFlow.Json

/-- A screen whose elements have not been read yet. -/
structure RawScreen where
  id : String
  title : String
  elements : List Value
  deriving DecidableEq, Repr

def RawScreen.fields : Fields Tree RawScreen RawScreen :=
  RawScreen.mk
    <$> .required "id" .text RawScreen.id
    <*> .defaulted "title" "" .text RawScreen.title
    <*> .defaulted "elements" [] (.list .value) RawScreen.elements

def RawScreen.listCodec : Codec (List RawScreen) := .list (RawScreen.fields.codec "RawScreen")

/-- The screens of a snapshot. -/
structure Snapshot where
  screens : List RawScreen
  deriving DecidableEq, Repr

namespace Snapshot

/-- The field of a snapshot that is an object. -/
def fields : Fields Tree Snapshot Snapshot :=
  Snapshot.mk <$> .required "screens" RawScreen.listCodec Snapshot.screens

/-- Reads a snapshot from one of its two forms; any fault inside is one and the same. -/
def decode (t : Tree) : Except Fault Snapshot :=
  if t.isLegible then
    let outcome := match t with
      | .object ms => fields.readAll "EditorSnapshot" .held (.members ms)
      | t => (RawScreen.listCodec.decode .held t).map Snapshot.mk
    outcome.mapError fun _ => .noVariant "EditorSnapshot"
  else .error .malformed

/-- Reads a snapshot from a text. -/
def ofText (text : String) : Except Fault Snapshot :=
  match Tree.parse? text with
  | some t => decode t
  | none => .error .malformed

end Snapshot

/-! ## The kinds of elements in a value -/

/-- Why a value and the values in its branches are not all elements of known kinds. -/
inductive KindFault where
  /-- A value has no text as its tag. -/
  | untyped
  /-- A tag is no kind. -/
  | unknown (tag : String)
  deriving DecidableEq, Repr

/-- The kind that the members of an object name. -/
def kindOfMembers (ms : List (String × Value)) : Except KindFault Kind :=
  match Entries.get? ms tagKey with
  | some (.string tag) =>
    match Kind.ofName? tag with
    | some k => .ok k
    | none => .error (.unknown tag)
  | _ => .error .untyped

mutual

/-- The kind of a value, after the kinds of everything in its branches have been checked. -/
def checkKind : Value → Except KindFault Kind
  | .object ms => do
    let k ← kindOfMembers ms
    match k with
    | .ifBlock =>
      checkBranchAt "then" ms
      checkBranchAt "else" ms
    | .switchBlock => checkCasesAt "cases" ms
    | _ => .ok ()
    return k
  | _ => .error .untyped
termination_by structural v => v

/-- Checks the values of a branch in order. -/
def checkBranch : List Value → Except KindFault Unit
  | [] => .ok ()
  | v :: vs => do
    let _ ← checkKind v
    checkBranch vs
termination_by structural vs => vs

/-- Checks a value that is a branch; other values are left alone. -/
def checkIfBranch : Value → Except KindFault Unit
  | .array vs => checkBranch vs
  | _ => .ok ()
termination_by structural v => v

/-- Checks the branch under a key, if there is one. -/
def checkBranchAt (key : String) : List (String × Value) → Except KindFault Unit
  | [] => .ok ()
  | (k, v) :: ms => if k = key then checkIfBranch v else checkBranchAt key ms
termination_by structural ms => ms

/-- Checks the branches among the members of cases in order. -/
def checkCases : List (String × Value) → Except KindFault Unit
  | [] => .ok ()
  | (_, v) :: ms => do
    checkIfBranch v
    checkCases ms
termination_by structural ms => ms

/-- Checks a value that is cases; other values are left alone. -/
def checkIfCases : Value → Except KindFault Unit
  | .object ms => checkCases ms
  | _ => .ok ()
termination_by structural v => v

/-- Checks the cases under a key, if there are any. -/
def checkCasesAt (key : String) : List (String × Value) → Except KindFault Unit
  | [] => .ok ()
  | (k, v) :: ms => if k = key then checkIfCases v else checkCasesAt key ms
termination_by structural ms => ms

end

/-! ## Reading screens -/

/-- Why a snapshot has no screens to compile. -/
inductive SnapshotError where
  /-- The text is no snapshot. -/
  | unreadable (fault : Fault)
  /-- An element, or one in its branches, has a tag that is no kind. -/
  | unmappableKind (screen : String) (position : Nat) (tag : String)
  /-- An element, or one in its branches, has no tag. -/
  | untypedElement (screen : String) (position : Nat)
  /-- An element of a known kind is malformed. -/
  | malformedElement (screen : String) (position : Nat) (kind : Kind) (fault : Fault)
  deriving DecidableEq, Repr

/-- The wording for a malformed element. -/
def malformedMessage (screen : String) (position : Nat) (kind reason : String) : String :=
  "Element " ++ toString position ++ " ('" ++ kind ++ "') on screen '" ++ screen ++
    "' is malformed: " ++ reason

def SnapshotError.message : SnapshotError → String
  | .unreadable fault => "Failed to parse editor JSON: " ++ fault.message
  | .unmappableKind screen position tag =>
    "Element " ++ toString position ++ " on screen '" ++ screen ++ "' has kind '" ++ tag ++
      "', which has no wire mapping"
  | .untypedElement screen position =>
    malformedMessage screen position "<untyped>" "element has no string `type` tag"
  | .malformedElement screen position kind fault =>
    malformedMessage screen position kind.name fault.message

/-- Reads the element at a position, counted from one, of a screen. -/
def readElement (screen : String) (position : Nat) (v : Value) : Except SnapshotError Element :=
  match checkKind v with
  | .error .untyped => .error (.untypedElement screen position)
  | .error (.unknown tag) => .error (.unmappableKind screen position tag)
  | .ok kind =>
    (Element.union.decode .held v.toTree).mapError (.malformedElement screen position kind)

/-- Reads the elements of a screen in order from a position on. -/
def readElements (screen : String) (position : Nat) :
    List Value → Except SnapshotError (List Element)
  | [] => .ok []
  | v :: vs => do
    let e ← readElement screen position v
    let es ← readElements screen (position + 1) vs
    return e :: es

/-- Reads the elements of one screen. -/
def RawScreen.read (raw : RawScreen) : Except SnapshotError Screen := do
  let elements ← readElements raw.id 1 raw.elements
  return ⟨raw.id, raw.title, elements⟩

/-- Reads the elements of screens in order. -/
def readScreens : List RawScreen → Except SnapshotError (List Screen)
  | [] => .ok []
  | raw :: raws => do
    let screen ← raw.read
    let screens ← readScreens raws
    return screen :: screens

/-- Reads the elements of a snapshot. -/
def Snapshot.read (s : Snapshot) : Except SnapshotError (List Screen) := readScreens s.screens

/-- The screens of a snapshot's text. -/
def parseScreens (text : String) : Except SnapshotError (List Screen) :=
  match Snapshot.ofText text with
  | .ok snapshot => snapshot.read
  | .error fault => .error (.unreadable fault)

end ScreenFlow.Design
