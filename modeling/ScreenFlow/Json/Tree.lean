import ScreenFlow.Entries
import ScreenFlow.Json.Token
import ScreenFlow.Json.Value

/-!
# JSON trees

A tree is what a text says: doubled keys stand as they were written, and a part that is well formed
but stands for nothing is one illegible leaf. Reading it as a value fails on such a leaf and keeps
the last of doubled keys at the place of the first.
-/

namespace ScreenFlow.Json

/-- The structure of a JSON text. -/
inductive Tree where
  | null
  | bool (b : Bool)
  | number (n : Number)
  | string (s : String)
  | array (items : List Tree)
  | object (members : List (String × Tree))
  /-- A well-formed part that no value can be read from. -/
  | illegible
  deriving Repr, Inhabited

/-- The depth of arrays and objects beyond which a tree is illegible. -/
def maxDepth : Nat := 127

/-! ## Reading a tree from lexemes -/

/-- An array or object whose end has not been read; its parts stand latest first. -/
inductive Frame where
  | array (items : List Tree)
  /-- An object, whether all its keys are legible, and the key whose value is being read. -/
  | object (members : List (String × Tree)) (legible : Bool) (key : String)
  deriving Repr

/-- Which lexemes may come next inside the innermost open frame. -/
inductive Expecting where
  | value
  /-- A value, or the end of an array without items. -/
  | firstItem
  /-- A key, or the end of an object without members. -/
  | firstKey
  | key
  | colon
  /-- A comma or the end of the frame. -/
  | separator
  deriving DecidableEq, Repr

/-- A tree that is being read. -/
inductive Builder where
  | growing (frames : List Frame) (next : Expecting)
  | complete (tree : Tree)
  | failed
  deriving Repr

/-- The leaf of a lexeme that is a whole value. -/
def Token.leaf? : Token → Option Tree
  | .null => some .null
  | .bool b => some (.bool b)
  | .number n => some (.number n)
  | .string s => some (.string s)
  | .illegibleNumber | .illegibleString => some .illegible
  | _ => none

namespace Builder

/-- Puts a finished tree into the innermost frame. -/
def accept (tree : Tree) : List Frame → Builder
  | [] => .complete tree
  | .array items :: frames => .growing (.array (tree :: items) :: frames) .separator
  | .object members legible key :: frames =>
    .growing (.object ((key, tree) :: members) legible key :: frames) .separator

/-- Whether one more array or object inside the given frames is not too deep. -/
def hasRoom (frames : List Frame) : Bool := (frames.drop (maxDepth - 1)).isEmpty

/-- Ends an array inside the given frames. -/
def closeArray (items : List Tree) (frames : List Frame) : Builder :=
  accept (if hasRoom frames then .array items.reverse else .illegible) frames

/-- Ends an object inside the given frames. -/
def closeObject (members : List (String × Tree)) (legible : Bool) (frames : List Frame) : Builder :=
  accept (if legible && hasRoom frames then .object members.reverse else .illegible) frames

/-- Takes a lexeme where a value must begin. -/
def beginValue (frames : List Frame) (t : Token) : Builder :=
  match t with
  | .openArray => .growing (.array [] :: frames) .firstItem
  | .openObject => .growing (.object [] true "" :: frames) .firstKey
  | t =>
    match t.leaf? with
    | some leaf => accept leaf frames
    | none => .failed

/-- Takes a lexeme where a key must come. -/
def beginMember (frames : List Frame) (t : Token) : Builder :=
  match frames, t with
  | .object members legible _ :: frames, .string key =>
    .growing (.object members legible key :: frames) .colon
  | .object members _ _ :: frames, .illegibleString =>
    .growing (.object members false "" :: frames) .colon
  | _, _ => .failed

/-- Takes one lexeme. -/
def step (b : Builder) (t : Token) : Builder :=
  match b with
  | .growing frames next =>
    match next with
    | .value => beginValue frames t
    | .firstItem =>
      match frames, t with
      | .array items :: frames, .closeArray => closeArray items frames
      | frames, t => beginValue frames t
    | .firstKey =>
      match frames, t with
      | .object members legible _ :: frames, .closeObject => closeObject members legible frames
      | frames, t => beginMember frames t
    | .key => beginMember frames t
    | .colon => if t = .colon then .growing frames .value else .failed
    | .separator =>
      match frames, t with
      | .array items :: frames, .comma => .growing (.array items :: frames) .value
      | .array items :: frames, .closeArray => closeArray items frames
      | .object members legible key :: frames, .comma =>
        .growing (.object members legible key :: frames) .key
      | .object members legible _ :: frames, .closeObject => closeObject members legible frames
      | _, _ => .failed
  | .complete _ => .failed
  | .failed => .failed

end Builder

namespace Tree

/-- The tree of a sequence of lexemes. -/
def ofTokens? (tokens : List Token) : Option Tree :=
  match tokens.foldl Builder.step (.growing [] .value) with
  | .complete tree => some tree
  | _ => none

/-- The tree of a text, or nothing where the text is not JSON. -/
def parse? (text : String) : Option Tree := (tokens? text.toList).bind ofTokens?

/-! ## Trees and values -/

mutual

/-- The value that a tree stands for, unless a part of it is illegible. -/
def toValue? : Tree → Option Value
  | .null => some .null
  | .bool b => some (.bool b)
  | .number n => some (.number n)
  | .string s => some (.string s)
  | .array items => (itemValues? items).map .array
  | .object members => (memberValues? members).map fun ms => .object (Entries.ofMembers ms)
  | .illegible => none
termination_by structural t => t

/-- The values of a list of trees. -/
def itemValues? : List Tree → Option (List Value)
  | [] => some []
  | t :: ts =>
    match toValue? t, itemValues? ts with
    | some v, some vs => some (v :: vs)
    | _, _ => none
termination_by structural ts => ts

/-- The values of members, doubled keys as they stand. -/
def memberValues? : List (String × Tree) → Option (List (String × Value))
  | [] => some []
  | (key, t) :: ms =>
    match toValue? t, memberValues? ms with
    | some v, some vs => some ((key, v) :: vs)
    | _, _ => none
termination_by structural ms => ms

end

mutual

/-- Whether no part of a tree is illegible. -/
def isLegible : Tree → Bool
  | .array items => itemsLegible items
  | .object members => membersLegible members
  | .illegible => false
  | _ => true
termination_by structural t => t

/-- Whether no part of a list of trees is illegible. -/
def itemsLegible : List Tree → Bool
  | [] => true
  | t :: ts => isLegible t && itemsLegible ts
termination_by structural ts => ts

/-- Whether no part of a list of members is illegible. -/
def membersLegible : List (String × Tree) → Bool
  | [] => true
  | (_, t) :: ms => isLegible t && membersLegible ms
termination_by structural ms => ms

end

end Tree

namespace Value

mutual

/-- The tree that says a value. -/
def toTree : Value → Tree
  | .null => .null
  | .bool b => .bool b
  | .number n => .number n
  | .string s => .string s
  | .array items => .array (itemTrees items)
  | .object members => .object (memberTrees members)
termination_by structural v => v

/-- The trees of a list of values. -/
def itemTrees : List Value → List Tree
  | [] => []
  | v :: vs => toTree v :: itemTrees vs
termination_by structural vs => vs

/-- The trees of members. -/
def memberTrees : List (String × Value) → List (String × Tree)
  | [] => []
  | (key, v) :: ms => (key, toTree v) :: memberTrees ms
termination_by structural ms => ms

end

end Value

end ScreenFlow.Json
