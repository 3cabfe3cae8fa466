import ScreenFlow.Design.Snapshot

/-!
# Rules from designs to flows

What becomes of the JSON of an element that is compiled alone, said on that JSON: rules for keys,
for attributes, for actions, for the items of lists, for a few kinds, and for branches. They know
nothing of the records behind the JSON; an attribute without a rule of its own is kept under its new
key.
-/

namespace ScreenFlow.Rewriting

open ScreenFlow.Codec ScreenFlow.Json
open ScreenFlow.Design (Kind kindOfMembers)

/-! ## Attributes -/

/-- A capital starts a new word. -/
def kebabChar (c : Char) : List Char := if c.isUpper then ['-', c.toLower] else [c]

/-- The words of a key in small letters, joined by hyphens. -/
def kebab (key : String) : String := String.ofList (key.toList.flatMap kebabChar)

/-- An attribute that is null is dropped, and the key of any other is rewritten. -/
def attributeMember (key : String) (v : Value) : List (String × Value) :=
  if v = .null then [] else [(kebab key, v)]

/-- Rewrites every member of an object by a rule. -/
def mapMembers (rule : List (String × Value) → String → Value → List (String × Value)) :
    Value → Value
  | .object ms => .object (ms.flatMap fun m => rule ms m.1 m.2)
  | v => v

/-- Rewrites every item of an array. -/
def mapItems (rule : Value → Value) : Value → Value
  | .array vs => .array (vs.map rule)
  | v => v

/-! ## Actions -/

/-- The text under a key, empty where there is none. -/
def textAt (ms : List (String × Value)) (key : String) : String :=
  match Entries.get? ms key with
  | some (.string text) => text
  | _ => ""

/-- The next screen of a navigating action becomes an object and that of any other is dropped; a
footer that leaves the screen has a payload. -/
def actionMember (inFooter : Bool) (ms : List (String × Value)) (key : String) (v : Value) :
    List (String × Value) :=
  if key = "next" then
    if textAt ms "name" = "navigate" ∧ textAt ms "next" ≠ "" then
      [("next", .object [("type", .string "screen"), ("name", v)])]
    else []
  else if key = "payload" ∧ v = .null ∧ inFooter ∧
      (textAt ms "name" = "navigate" ∨ textAt ms "name" = "complete") then
    [("payload", .object [])]
  else attributeMember key v

def rewriteAction (inFooter : Bool) : Value → Value := mapMembers (actionMember inFooter)

/-! ## Items of lists -/

def rewriteImage : Value → Value := mapMembers fun _ => attributeMember

/-- The keys of what an item of a navigation list says. -/
def contentKeys : List String := ["title", "description", "metadata"]

/-- What an item says, as an object of its own. -/
def itemContent (ms : List (String × Value)) : Value :=
  .object ((ms.filter fun m => m.1 ∈ contentKeys).flatMap fun m => attributeMember m.1 m.2)

/-- What an item says is moved into its own object, which stands in place of the title. -/
def itemMember (ms : List (String × Value)) (key : String) (v : Value) : List (String × Value) :=
  if key = "title" then [("main-content", itemContent ms)]
  else if key ∈ contentKeys then []
  else if key = "onClickAction" then attributeMember key (rewriteAction false v)
  else attributeMember key v

def rewriteItem : Value → Value := mapMembers itemMember

/-! ## Kinds -/

/-- Lines of input for something are lines of input. -/
def typeName : Kind → String
  | .emailInput | .passwordInput | .phoneInput => Kind.textInput.name
  | k => k.name

/-- The input type that a kind stands for. -/
def impliedInputType? : Kind → Option String
  | .emailInput => some "email"
  | .passwordInput => some "password"
  | .phoneInput => some "phone"
  | _ => none

/-- The keys of the bounds on the number of options. -/
def boundKeys : List String := ["minSelectedItems", "maxSelectedItems"]

/-- Whether a kind takes one option only. -/
def takesOne (k : Kind) : Bool := k = .radioButtonsGroup ∨ k = .dropdown

/-- Rewrites one member of an element of a kind, apart from branches. -/
def elementMember (k : Kind) (key : String) (v : Value) : List (String × Value) :=
  if key = tagKey then [(tagKey, .string (typeName k))]
  else if key = "inputType" then
    match impliedInputType? k with
    | some name => [("input-type", .string name)]
    | none => attributeMember key v
  else if key ∈ boundKeys ∧ takesOne k then []
  else if key = "onClickAction" ∨ key = "onSelectAction" then
    attributeMember key (rewriteAction (k = .footer) v)
  else if key = "images" then attributeMember key (mapItems rewriteImage v)
  else if key = "items" then attributeMember "listItems" (mapItems rewriteItem v)
  else attributeMember key v

/-! ## Elements -/

mutual

/-- Rewrites the JSON of an element. -/
def rewrite : Value → Value
  | .object ms =>
    match kindOfMembers ms with
    | .ok k => .object (rewriteMembers k ms)
    | .error _ => .object ms
  | v => v
termination_by structural v => v

/-- Rewrites the members of an element of a kind; a second branch that is empty is dropped. -/
def rewriteMembers (k : Kind) : List (String × Value) → List (String × Value)
  | [] => []
  | (key, v) :: ms =>
    (if key = "else" ∧ v = .array [] then []
      else if key = "then" ∨ key = "else" then [(key, rewriteBranch v)]
      else if key = "cases" then [(key, rewriteCases v)]
      else elementMember k key v) ++ rewriteMembers k ms
termination_by structural ms => ms

/-- Rewrites the elements of a branch. -/
def rewriteBranch : Value → Value
  | .array vs => .array (rewriteItems vs)
  | v => v
termination_by structural v => v

def rewriteItems : List Value → List Value
  | [] => []
  | v :: vs => rewrite v :: rewriteItems vs
termination_by structural vs => vs

/-- Rewrites the branches of cases, whose names are left as they are. -/
def rewriteCases : Value → Value
  | .object ms => .object (rewriteNamed ms)
  | v => v
termination_by structural v => v

def rewriteNamed : List (String × Value) → List (String × Value)
  | [] => []
  | (name, v) :: ms => (name, rewriteBranch v) :: rewriteNamed ms
termination_by structural ms => ms

end

/-! ## What is never dropped -/

/-- The members of an object. -/
def members : Value → List (String × Value)
  | .object ms => ms
  | _ => []

/-- Values that are set although they look as if they were not. -/
def blanks : List Value := [
  .bool false, .number (.integer 0), .number (.float ⟨false, 0⟩), .number (.float ⟨true, 0⟩),
  .string "", .array []]

/-- What becomes of the key of an attribute. -/
def attributeKey (key : String) : String := if key = "items" then "list-items" else kebab key

/-- The attributes that a rule drops or replaces, whatever they say: bounds where only one option is
taken, an input type where the kind stands for one, and a second branch that is empty. -/
def IsReplaced (k : Kind) (key : String) (v : Value) : Prop :=
  (key ∈ boundKeys ∧ takesOne k) ∨ (key = "inputType" ∧ (impliedInputType? k).isSome) ∨
    (key = "else" ∧ v = .array [])

/-! ## The order of members -/

mutual

/-- Two nodes with the same members, each under its key, in any order. -/
inductive SameNode : Value → Value → Prop where
  | node {ms ns reordered : List (String × Value)} :
      ms.Perm reordered → SameMembers reordered ns → SameNode (.object ms) (.object ns)

/-- Members that are equal in their order, up to the order of members of nodes in branches. -/
inductive SameMembers : List (String × Value) → List (String × Value) → Prop where
  | nil : SameMembers [] []
  | same (m : String × Value) {ms ns : List (String × Value)} :
      SameMembers ms ns → SameMembers (m :: ms) (m :: ns)
  | branch {key : String} {vs ws : List Value} {ms ns : List (String × Value)} :
      key = "then" ∨ key = "else" → SameNodes vs ws → SameMembers ms ns →
        SameMembers ((key, .array vs) :: ms) ((key, .array ws) :: ns)
  | cases {cs ds ms ns : List (String × Value)} :
      SameCases cs ds → SameMembers ms ns →
        SameMembers (("cases", .object cs) :: ms) (("cases", .object ds) :: ns)

/-- Nodes of a branch, in their order. -/
inductive SameNodes : List Value → List Value → Prop where
  | nil : SameNodes [] []
  | cons {v w : Value} {vs ws : List Value} :
      SameNode v w → SameNodes vs ws → SameNodes (v :: vs) (w :: ws)

/-- Named branches, in their order. -/
inductive SameCases : List (String × Value) → List (String × Value) → Prop where
  | nil : SameCases [] []
  | cons {name : String} {vs ws : List Value} {cs ds : List (String × Value)} :
      SameNodes vs ws → SameCases cs ds →
        SameCases ((name, .array vs) :: cs) ((name, .array ws) :: ds)

end

end ScreenFlow.Rewriting
