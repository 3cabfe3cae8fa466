import ScreenFlow.Flow.Document
import ScreenFlow.Review.Limits

/-!
# Files

The files that a command reads and writes, with the documents and limits in them. A path leads to an
entry or nowhere, for a reason in the words of the operating system.
-/

namespace ScreenFlow

open ScreenFlow.Codec

/-- The files a command can see. -/
structure Files where
  contents : Entries String
  /-- The entry that a path leads to when it is read, or why there can be none. -/
  source : String → Except String String
  /-- The entry that a path leads to when it is written, or why there can be none. -/
  target : String → Except String String

namespace Files

/-- The reason why a file that is not there cannot be read. -/
def notFound : String := "No such file or directory (os error 2)"

/-- The reason why a directory cannot be read or written like a file. -/
def isDirectory : String := "Is a directory (os error 21)"

/-- The reason why a path cannot go through a file. -/
def notDirectory : String := "Not a directory (os error 20)"

/-- The reason why a path cannot be followed where it or a name in it has too many bytes. -/
def nameTooLong : String := "File name too long (os error 36)"

/-- The text of a file. -/
def read (f : Files) (path : String) : Except String String := do
  let name ← f.source path
  match f.contents.get? name with
  | some text => return text
  | none => .error notFound

/-- Sets the text of a file. -/
def write (f : Files) (path text : String) : Except String Files := do
  let name ← f.target path
  return { f with contents := f.contents.put name text }

/-- The greatest number of bytes in a name. -/
def maxNameBytes : Nat := 255

/-- The greatest number of bytes in a path. -/
def maxPathBytes : Nat := 4095

/-- Whether a path is for reading or for writing. -/
inductive Purpose where
  | reading
  | writing
  deriving DecidableEq, Repr

/--
The entry that a path leads to in a directory without others inside it. The directories around it
are there, and nothing is known to be in them. A path goes up first, and the first name behind that
is the entry: anything more, also a dot, would need a directory in its place. A slash behind the
name says that a directory is meant, which cannot be written.
-/
def locate (names : List String) (purpose : Purpose) (path : String) : Except String String :=
  let parts := path.splitOn "/"
  let steps := parts.filter fun part => part ≠ "" ∧ part ≠ "."
  let up := steps.takeWhile fun step => step = ".."
  match steps.drop up.length with
  | [] =>
    if path.isEmpty then .error notFound
    else if maxPathBytes < path.utf8ByteSize then .error nameTooLong
    else .error isDirectory
  | name :: inner =>
    let entry := "/".intercalate ((if path.startsWith "/" then [""] else []) ++ up ++ [name])
    let last := (parts.reverse.dropWhile String.isEmpty).head? = some name ∧ inner = []
    if maxPathBytes < path.utf8ByteSize then .error nameTooLong
    else if last ∧ path.endsWith "/" ∧ purpose = .writing then .error isDirectory
    else if maxNameBytes < name.utf8ByteSize then .error nameTooLong
    else if last ∧ ¬path.endsWith "/" then .ok entry
    else .error (if entry ∈ names then notDirectory else notFound)

/-- The files of one directory without others inside it. -/
def ofDirectory (contents : Entries String) : Files where
  contents := contents
  source := locate contents.keys .reading
  target := locate contents.keys .writing

end Files

/-! ## Limits in files -/

/-- Why there are no limits. -/
inductive ConfigError where
  | unreadable (path reason : String)
  | invalid (fault : Fault)
  deriving DecidableEq, Repr

def ConfigError.message : ConfigError → String
  | .unreadable path reason => "Could not read limits file '" ++ path ++ "': " ++ reason
  | .invalid fault => "Invalid limits configuration: " ++ fault.message

/-- Reads limits from a text. -/
def parseLimits (text : String) : Except ConfigError Review.Limits :=
  (Review.Limits.ofText text).mapError .invalid

/-- Reads limits from a file. -/
def loadLimits (files : Files) (path : String) : Except ConfigError Review.Limits := do
  let text ← (files.read path).mapError (.unreadable path)
  parseLimits text

/-! ## Documents in files -/

/-- Why a document is not read or written. -/
inductive DocumentError where
  | inaccessible (path reason : String)
  | malformed (fault : Fault)
  deriving DecidableEq, Repr

def DocumentError.message : DocumentError → String
  | .inaccessible path reason => "Could not access '" ++ path ++ "': " ++ reason
  | .malformed fault => "Flow document serialization failed: " ++ fault.message

/-- Reads a document from a text. -/
def parseDocument (text : String) : Except DocumentError Flow.Document :=
  (Flow.Document.ofText text).mapError .malformed

/-- Reads a document from a file. -/
def loadDocument (files : Files) (path : String) : Except DocumentError Flow.Document := do
  let text ← (files.read path).mapError (.inaccessible path)
  parseDocument text

/-- Writes a document to a file, indented. -/
def saveDocument (files : Files) (path : String) (d : Flow.Document) : Except DocumentError Files :=
  (files.write path (d.toText true)).mapError (.inaccessible path)

end ScreenFlow
