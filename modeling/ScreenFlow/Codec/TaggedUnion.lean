import ScreenFlow.Codec.Fields

/-!
# Tagged unions

A tagged union is written as an object whose first member `type` names the variant and whose other
members are the fields of that variant. Fields may hold further elements of the same union: a branch
is a list of them, and cases are named branches. Reading is one recursion over the tree that offers
every part of an object both as a tree and, on demand, as a branch or as cases.
-/

namespace ScreenFlow.Codec

open ScreenFlow.Json

/-- The key of the tag. -/
def tagKey : String := "type"

/-- A part of a tagged object: its tree, and what it is as a branch and as cases. -/
structure Slot (α : Type) where
  tree : Tree
  branch : Unit → Except Fault (List α)
  cases : Unit → Except Fault (Entries (List α))

/-- A variant: its tag, and how it is read from the parts that follow the tag. -/
structure Variant (α : Type) where
  tag : String
  read : Source (Slot α) → Except Fault α

/-- A variant that holds a record without branches. -/
def Variant.ofRecord {α β : Type} (tag record : String) (fs : Fields Tree β β) (make : β → α) :
    Variant α where
  tag := tag
  read source := (fs.readAll record .held (source.map Slot.tree)).map make

/-- A variant with branches. -/
def Variant.ofParts {α ρ β : Type} (tag record : String) (fs : Fields (Slot α) ρ β) (make : β → α) :
    Variant α where
  tag := tag
  read source := (fs.readAll record .held source).map make

/-- A tagged union: its name and its variants in order. -/
structure TaggedUnion (α : Type) where
  name : String
  variants : List (Variant α)

namespace TaggedUnion

variable {α : Type}

/-- The tags in order. -/
def tags (u : TaggedUnion α) : List String := u.variants.map Variant.tag

/-- The variant of a tag. In a held tree the tag may also be a position among the variants. -/
def variant? (u : TaggedUnion α) (origin : Origin) : Tree → Except Fault (Variant α)
  | .string tag =>
    match u.variants.find? fun v => v.tag == tag with
    | some v => .ok v
    | none => .error (.unknownVariant tag u.tags)
  | .number (.integer n) =>
    if origin = .held ∧ 0 ≤ n then
      match u.variants[n.toNat]? with
      | some v => .ok v
      | none => .error (.wrongValue (.integer n) (.tagIndex u.variants.length))
    else .error (.wrongType (.integer n) .tag)
  | t => .error (mismatch t .tag)

/-- Reads an element from the members of an object: the tag first, then the fields. -/
def readMembers (u : TaggedUnion α) (origin : Origin) (slots : List (String × Slot α)) :
    Except Fault α :=
  match slots.filter fun m => m.1 == tagKey with
  | [] => .error (.missingField tagKey)
  | tag :: others => do
    let v ← u.variant? origin tag.2.tree
    if others.isEmpty then v.read (.members (slots.filter fun m => m.1 != tagKey))
    else .error (.duplicateField tagKey)

/-- Reads an element from an array whose first item is the tag. -/
def readItems (u : TaggedUnion α) (origin : Origin) : List (Slot α) → Except Fault α
  | [] => .error (.missingField tagKey)
  | tag :: fields => do
    let v ← u.variant? origin tag.tree
    v.read (.items fields)

mutual

/-- Reads an element. -/
def decode (u : TaggedUnion α) (origin : Origin) : Tree → Except Fault α
  | .object ms => u.readMembers origin (memberSlots u ms)
  | .array ts => u.readItems origin (itemSlots u ts)
  | t => .error (mismatch t (.union u.name))
termination_by structural t => t

/-- Reads a list of held elements, up to the first fault. -/
def decodeList (u : TaggedUnion α) : List Tree → Except Fault (List α)
  | [] => .ok []
  | t :: ts => do
    let a ← decode u .held t
    let as ← decodeList u ts
    return a :: as
termination_by structural ts => ts

/-- Reads a branch. -/
def decodeBranch (u : TaggedUnion α) : Tree → Except Fault (List α)
  | .array ts => decodeList u ts
  | t => .error (mismatch t .sequence)
termination_by structural t => t

/-- Reads named branches in order, up to the first fault. -/
def decodeNamedBranches (u : TaggedUnion α) :
    List (String × Tree) → Except Fault (List (String × List α))
  | [] => .ok []
  | (key, t) :: ms => do
    let branch ← decodeBranch u t
    let branches ← decodeNamedBranches u ms
    return (key, branch) :: branches
termination_by structural ms => ms

/-- Reads cases; of doubled keys the first gives the position and the last the branch. -/
def decodeCases (u : TaggedUnion α) : Tree → Except Fault (Entries (List α))
  | .object ms => (decodeNamedBranches u ms).map Entries.ofMembers
  | t => .error (mismatch t .map)
termination_by structural t => t

/-- The parts of an object. -/
def memberSlots (u : TaggedUnion α) : List (String × Tree) → List (String × Slot α)
  | [] => []
  | (key, t) :: ms =>
    (key, ⟨t, fun _ => decodeBranch u t, fun _ => decodeCases u t⟩) :: memberSlots u ms
termination_by structural ms => ms

/-- The parts of an array. -/
def itemSlots (u : TaggedUnion α) : List Tree → List (Slot α)
  | [] => []
  | t :: ts => ⟨t, fun _ => decodeBranch u t, fun _ => decodeCases u t⟩ :: itemSlots u ts
termination_by structural ts => ts

end

/-- Reads an element of a tree that must be legible as a whole, since all of it is held. -/
def decodeWhole (u : TaggedUnion α) (origin : Origin) (t : Tree) : Except Fault α :=
  if t.isLegible then u.decode origin t else .error .malformed

end TaggedUnion

/-! ## Fields with elements -/

namespace Fields

variable {ρ α : Type}

/-- A branch that is empty when it is not there. -/
def defaultedBranch (name : String) (get : ρ → Value) : Fields (Slot α) ρ (List α) :=
  single name (fun r => some (get r)) (some []) (some []) fun _ slot => slot.branch ()

/-- A branch that has to be there. -/
def requiredBranch (name : String) (get : ρ → Value) : Fields (Slot α) ρ (List α) :=
  single name (fun r => some (get r)) none none fun _ slot => slot.branch ()

/-- A branch that is left out when it is unset. -/
def optionalBranch (name : String) (get : ρ → Option Value) : Fields (Slot α) ρ (Option (List α)) :=
  single name get (some none) (some none) fun _ slot =>
    match slot.tree with
    | .null => .ok none
    | _ => (slot.branch ()).map some

/-- Cases that are empty when they are not there. -/
def defaultedCases (name : String) (get : ρ → Value) : Fields (Slot α) ρ (Entries (List α)) :=
  single name (fun r => some (get r)) (some []) (some []) fun _ slot => slot.cases ()

/-- Cases that have to be there. -/
def requiredCases (name : String) (get : ρ → Value) : Fields (Slot α) ρ (Entries (List α)) :=
  single name (fun r => some (get r)) none none fun _ slot => slot.cases ()

end Fields

end ScreenFlow.Codec
