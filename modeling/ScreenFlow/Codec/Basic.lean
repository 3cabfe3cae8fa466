import ScreenFlow.Codec.Fault
import ScreenFlow.Json.Writing

/-!
# Codecs

A codec holds both directions of one JSON form: writing a typed value as a JSON value, and reading
it from a tree. Where a tree comes from matters for a few forms: inside a tagged union the whole
union has been held as a tree before its parts are looked at, and there a few spellings more are
understood and arrays that are too long are told from texts that are not JSON.
-/

namespace ScreenFlow.Codec

open ScreenFlow.Json

/-- Where the tree that is read comes from. -/
inductive Origin where
  /-- Straight from a text. -/
  | text
  /-- Held as a tree, as the parts of a tagged union are. -/
  | held
  deriving DecidableEq, Repr

end ScreenFlow.Codec

namespace ScreenFlow

open ScreenFlow.Json ScreenFlow.Codec

/-- Both directions of the JSON form of a type. -/
structure Codec (α : Type) where
  encode : α → Value
  decode : Origin → Tree → Except Fault α

namespace Codec

variable {α : Type}

/-! ## Scalars -/

/-- Text. -/
def text : Codec String where
  encode := .string
  decode _ t := match t with
    | .string s => .ok s
    | t => .error (mismatch t .text)

/-- Truth values. -/
def boolean : Codec Bool where
  encode := .bool
  decode _ t := match t with
    | .bool b => .ok b
    | t => .error (mismatch t .boolean)

/-- A natural number below a bound. -/
def natBelow (bound : Nat) (expected : Expected) (t : Tree) : Except Fault Nat :=
  match t with
  | .number (.integer n) =>
    if 0 ≤ n ∧ n < bound then .ok n.toNat else .error (.wrongValue (.integer n) expected)
  | t => .error (mismatch t expected)

/-- Unsigned integers of 32 bits. -/
def word32 : Codec UInt32 where
  encode n := .number (.integer n.toNat)
  decode _ t := (natBelow UInt32.size .word32 t).map UInt32.ofNat

/-- Unsigned integers of 64 bits. -/
def word64 : Codec UInt64 where
  encode n := .number (.integer n.toNat)
  decode _ t := (natBelow UInt64.size .word64 t).map UInt64.ofNat

/-- Sizes, which are read only where they have at most 64 bits. -/
def size : Codec Nat where
  encode n := .number (.integer n)
  decode _ t := natBelow UInt64.size .word64 t

/-- Binary64 numbers; an integer stands for the nearest one. -/
def float : Codec Binary64 where
  encode x := .number (.float x)
  decode _ t := match t with
    | .number (.float x) => .ok x
    | .number (.integer n) => .ok (.ofInt n)
    | t => .error (mismatch t .float)

/-- Any JSON value. -/
def value : Codec Value where
  encode v := v
  decode _ t := match t.toValue? with
    | some v => .ok v
    | none => .error .malformed

/-! ## Lists, maps and unset values -/

/-- Reads the items of an array in order, up to the first fault. -/
def decodeItems (decode : Tree → Except Fault α) : List Tree → Except Fault (List α)
  | [] => .ok []
  | t :: ts => do
    let a ← decode t
    let as ← decodeItems decode ts
    return a :: as

/-- Reads the values of members in order, up to the first fault. -/
def decodeMembers (decode : Tree → Except Fault α) :
    List (String × Tree) → Except Fault (List (String × α))
  | [] => .ok []
  | (key, t) :: ms => do
    let a ← decode t
    let as ← decodeMembers decode ms
    return (key, a) :: as

/-- Lists. -/
def list (c : Codec α) : Codec (List α) where
  encode as := .array (as.map c.encode)
  decode origin t := match t with
    | .array ts => decodeItems (c.decode origin) ts
    | t => .error (mismatch t .sequence)

/-- Maps; of doubled keys the first gives the position and the last the value. -/
def entries (c : Codec α) : Codec (Entries α) where
  encode es := .object (es.map fun e => (e.1, c.encode e.2))
  decode origin t := match t with
    | .object ms => (decodeMembers (c.decode origin) ms).map Entries.ofMembers
    | t => .error (mismatch t .map)

/-- A value that may be null. -/
def orNull (c : Codec α) : Codec (Option α) where
  encode a := match a with
    | some a => c.encode a
    | none => .null
  decode origin t := match t with
    | .null => .ok none
    | t => (c.decode origin t).map some

/-! ## One name out of a list -/

/-- The alternative of a name. -/
def named (all : List α) (name : α → String) (s : String) : Except Fault α :=
  match all.find? fun a => name a == s with
  | some a => .ok a
  | none => .error (.unknownVariant s (all.map name))

/-- Reads the null behind a name spelled as a key; a held tree may also have an empty object. -/
def decodeNothing (origin : Origin) (t : Tree) : Except Fault Unit :=
  match t with
  | .null => .ok ()
  | .object [] => if origin = .held then .ok () else .error (mismatch t .nothing)
  | t => .error (mismatch t .nothing)

/-- Names out of a list; a name may also be spelled as the only key of an object. -/
def choice (all : List α) (name : α → String) : Codec α where
  encode a := .string (name a)
  decode origin t := match t, origin with
    | .string s, _ => named all name s
    | .object [(key, t)], origin => do
      let a ← named all name key
      decodeNothing origin t
      return a
    | .object ((key, t) :: _ :: _), .text => do
      let _ ← named all name key
      decodeNothing .text t
      .error .malformed
    | .object _, .held => .error (.wrongValue .map .singleKey)
    | t, .held => .error (mismatch t .choice)
    | _, .text => .error .malformed

/-! ## Whole texts -/

/-- Reads a value straight from a text. -/
def ofText (c : Codec α) (text : String) : Except Fault α :=
  match Tree.parse? text with
  | some t => c.decode .text t
  | none => .error .malformed

/-- The text of a value, indented or compact. -/
def toText (c : Codec α) (a : α) (indented : Bool) : String := (c.encode a).render indented

end Codec

end ScreenFlow
