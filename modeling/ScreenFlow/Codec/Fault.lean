import ScreenFlow.Json.Tree
import ScreenFlow.Text.Quoted

/-!
# Why a tree is no record

Reading a typed value out of a JSON tree fails for one of a few causes. Each is a constructor, and
its wording is in one function.
-/

namespace ScreenFlow.Codec

open ScreenFlow.Json

/-- What stands in a tree where something else was expected. -/
inductive Found where
  | boolean (b : Bool)
  | integer (n : Int)
  | float (x : Binary64)
  | text (s : String)
  | null
  | sequence
  | map
  deriving DecidableEq, Repr

/-- What was expected. -/
inductive Expected where
  | text
  | boolean
  /-- An unsigned integer of 32 bits. -/
  | word32
  /-- An unsigned integer of 64 bits. -/
  | word64
  | float
  | sequence
  | map
  /-- A record of the given name. -/
  | record (name : String)
  /-- A record of the given name spelled as an array of its fields. -/
  | fields (name : String) (count : Nat)
  /-- An array of so many items. -/
  | items (count : Nat)
  /-- A tagged union of the given name. -/
  | union (name : String)
  /-- The tag of a union. -/
  | tag
  /-- The position of a tag among so many. -/
  | tagIndex (count : Nat)
  /-- A name out of a list, or an object with that name as its key. -/
  | choice
  | singleKey
  /-- The null that goes with a name spelled as a key. -/
  | nothing
  deriving DecidableEq, Repr

/-- The cause of a failed reading. -/
inductive Fault where
  /-- The text is not JSON, or the part that is read is illegible. -/
  | malformed
  | wrongType (found : Found) (expected : Expected)
  | wrongValue (found : Found) (expected : Expected)
  | wrongLength (length : Nat) (expected : Expected)
  | missingField (name : String)
  | duplicateField (name : String)
  | unknownVariant (name : String) (known : List String)
  /-- No reading of an untagged union fits. -/
  | noVariant (union : String)
  deriving DecidableEq, Repr

/-! ## Wording -/

/-- A number as it stands in a message. -/
def numberText (n : Number) : String := String.ofList n.chars

/-- What was found, in words. -/
def Found.message : Found → String
  | .boolean true => "boolean `true`"
  | .boolean false => "boolean `false`"
  | .integer n => "integer `" ++ numberText (.integer n) ++ "`"
  | .float x => "floating point `" ++ numberText (.float x) ++ "`"
  | .text s => "string " ++ Text.quoted s
  | .null => "null"
  | .sequence => "sequence"
  | .map => "map"

/-- So many elements, in words. -/
def elementCount (count : Nat) : String :=
  if count = 1 then "1 element" else toString count ++ " elements"

/-- What was expected, in words. -/
def Expected.message : Expected → String
  | .text => "a string"
  | .boolean => "a boolean"
  | .word32 => "u32"
  | .word64 => "usize"
  | .float => "f64"
  | .sequence => "a sequence"
  | .map => "a map"
  | .record name => "struct " ++ name
  | .fields name count => "struct " ++ name ++ " with " ++ elementCount count
  | .items count => elementCount count ++ " in sequence"
  | .union name => "internally tagged enum " ++ name
  | .tag => "variant identifier"
  | .tagIndex count => "variant index 0 <= i < " ++ toString count
  | .choice => "string or map"
  | .singleKey => "map with a single key"
  | .nothing => "unit"

/-- A name between marks. -/
def marked (name : String) : String := "`" ++ name ++ "`"

/-- The names that were possible, in words. -/
def alternatives : List String → String
  | [] => "there are no variants"
  | [a] => marked a
  | [a, b] => marked a ++ " or " ++ marked b
  | names => "one of " ++ ", ".intercalate (names.map marked)

def Fault.message : Fault → String
  | .malformed => "invalid JSON text"
  | .wrongType found expected =>
    "invalid type: " ++ found.message ++ ", expected " ++ expected.message
  | .wrongValue found expected =>
    "invalid value: " ++ found.message ++ ", expected " ++ expected.message
  | .wrongLength length expected =>
    "invalid length " ++ toString length ++ ", expected " ++ expected.message
  | .missingField name => "missing field " ++ marked name
  | .duplicateField name => "duplicate field " ++ marked name
  | .unknownVariant name known =>
    "unknown variant " ++ marked name ++ ", expected " ++ alternatives known
  | .noVariant union => "data did not match any variant of untagged enum " ++ union

/-! ## The fault of a wrong kind of tree -/

/-- What a tree is, unless it is illegible. -/
def found? : Tree → Option Found
  | .null => some .null
  | .bool b => some (.boolean b)
  | .number (.integer n) => some (.integer n)
  | .number (.float x) => some (.float x)
  | .string s => some (.text s)
  | .array _ => some .sequence
  | .object _ => some .map
  | .illegible => none

/-- The fault of a tree that is not of the expected type. -/
def mismatch (t : Tree) (expected : Expected) : Fault :=
  match found? t with
  | some found => .wrongType found expected
  | none => .malformed

end ScreenFlow.Codec
