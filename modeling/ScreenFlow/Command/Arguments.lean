import ScreenFlow.Command

/-!
# Arguments

How the words of a command line are read. A word that starts with a hyphen names options, a long
one after two hyphens or several short ones after one; a hyphen alone is a plain word, and after two
hyphens alone every word is. An option's value stands behind it in the same word or is the next
word. Options that are not counted may be given once.

This is the outer layer of the program. What it says about words that are no command is worded here
and nowhere promised, help and version are left out, and no theorem is about any of it: theorems
begin with the command that was asked for.
-/

namespace ScreenFlow

/-- An option of a command. -/
structure OptionSpec where
  long : String
  short : Option Char
  takesValue : Bool
  /-- Whether the option may be given more than once. -/
  counted : Bool
  deriving DecidableEq, Repr

/-- Why words are no command. -/
inductive UsageError where
  | noCommand
  | unknownCommand (word : String)
  | unexpected (word : String)
  | repeated (option : String)
  | missingValue (option : String)
  | unwantedValue (option : String)
  | missingInput
  deriving DecidableEq, Repr

def UsageError.message : UsageError → String
  | .noCommand => "error: a command is required"
  | .unknownCommand word => "error: unrecognized command '" ++ word ++ "'"
  | .unexpected word => "error: unexpected argument '" ++ word ++ "'"
  | .repeated option => "error: the argument '--" ++ option ++ "' cannot be used multiple times"
  | .missingValue option => "error: a value is required for '--" ++ option ++ "'"
  | .unwantedValue option => "error: the argument '--" ++ option ++ "' takes no value"
  | .missingInput => "error: the path of a snapshot is required"

/-- What the words read so far say. -/
structure Arguments where
  /-- The plain words. -/
  plain : List String
  /-- The options given, each with its value if it takes one. -/
  given : Entries (Option String)
  /-- The option whose value is the next word. -/
  pending : Option OptionSpec
  /-- Whether all further words are plain. -/
  closed : Bool
  deriving DecidableEq, Repr

namespace Arguments

/-- Nothing has been read. -/
def empty : Arguments := ⟨[], [], none, false⟩

/-- Takes an option. -/
def give (a : Arguments) (spec : OptionSpec) (value : Option String) :
    Except UsageError Arguments :=
  if spec.long ∈ a.given.keys ∧ !spec.counted then .error (.repeated spec.long)
  else .ok { a with given := a.given.put spec.long value, pending := none }

/-- Takes an option whose value is the next word. -/
def expectValue (a : Arguments) (spec : OptionSpec) : Except UsageError Arguments :=
  if spec.long ∈ a.given.keys then .error (.repeated spec.long)
  else .ok { a with pending := some spec }

/-- Reads the option that a word names by its long name, with what stands behind the first `=`. -/
def readLong (specs : List OptionSpec) (a : Arguments) (cs : List Char) :
    Except UsageError Arguments :=
  let name := String.ofList (cs.takeWhile (· ≠ '='))
  match specs.find? fun spec => spec.long == name, cs.dropWhile (· ≠ '=') with
  | none, _ => .error (.unexpected ("--" ++ name))
  | some spec, [] => if spec.takesValue then a.expectValue spec else a.give spec none
  | some spec, _ :: value =>
    if spec.takesValue then a.give spec (some (String.ofList value))
    else .error (.unwantedValue spec.long)

/-- Reads the options that a word names by their short names. -/
def readShort (specs : List OptionSpec) (a : Arguments) : List Char → Except UsageError Arguments
  | [] => .ok a
  | c :: cs =>
    match specs.find? fun spec => spec.short == some c, cs with
    | none, _ => .error (.unexpected ("-" ++ c.toString))
    | some spec, cs =>
      if !spec.takesValue then do
        let a ← a.give spec none
        readShort specs a cs
      else
        match cs with
        | [] => a.expectValue spec
        | '=' :: value | value => a.give spec (some (String.ofList value))

/-- Whether a word names options. -/
def namesOptions (word : String) : Bool := word.startsWith "-" && word ≠ "-"

/-- Reads one word. -/
def readWord (specs : List OptionSpec) (a : Arguments) (word : String) :
    Except UsageError Arguments :=
  match a.pending, word.toList with
  | some spec, _ =>
    if namesOptions word then .error (.missingValue spec.long) else a.give spec (some word)
  | none, cs =>
    if a.closed ∨ !namesOptions word then .ok { a with plain := a.plain ++ [word] }
    else if word = "--" then .ok { a with closed := true }
    else if word.startsWith "--" then a.readLong specs (cs.drop 2)
    else a.readShort specs (cs.drop 1)

/-- Reads words in order. -/
def read (specs : List OptionSpec) (words : List String) : Except UsageError Arguments := do
  let a ← words.foldlM (readWord specs) empty
  match a.pending with
  | some spec => .error (.missingValue spec.long)
  | none => return a

def has (a : Arguments) (option : String) : Bool := option ∈ a.given.keys

/-- The value of an option that is given. -/
def value? (a : Arguments) (option : String) : Option String := (a.given.get? option).join

/-- The one plain word. -/
def input (a : Arguments) : Except UsageError String :=
  match a.plain with
  | [] => .error .missingInput
  | [path] => .ok path
  | _ :: word :: _ => .error (.unexpected word)

end Arguments

namespace Command

/-- How much is to be logged. It can be given anywhere and changes no outcome. -/
def verbose : OptionSpec := ⟨"verbose", some 'v', false, true⟩

/-- The options for compiling. -/
def compileSpecs : List OptionSpec := [
  ⟨"output", some 'o', true, false⟩,
  ⟨"pretty", none, false, false⟩,
  ⟨"validate", none, false, false⟩,
  ⟨"limits", none, true, false⟩,
  verbose]

/-- The options for reviewing. -/
def validateSpecs : List OptionSpec := [
  ⟨"limits", none, true, false⟩,
  ⟨"json", none, false, false⟩,
  verbose]

/-- The options for compiling that words give. -/
def compileOptions (words : List String) : Except UsageError CompileOptions := do
  let a ← Arguments.read compileSpecs words
  let input ← a.input
  return ⟨input, a.value? "output", a.has "pretty", a.has "validate", a.value? "limits"⟩

/-- The options for reviewing that words give. -/
def validateOptions (words : List String) : Except UsageError ValidateOptions := do
  let a ← Arguments.read validateSpecs words
  let input ← a.input
  return ⟨input, a.value? "limits", a.has "json"⟩

/-- The command that words ask for. -/
def ofArguments : List String → Except UsageError Command
  | [] => .error .noCommand
  | "compile" :: words => (compileOptions words).map .compile
  | "validate" :: words => (validateOptions words).map .validate
  | word :: words =>
    if Arguments.namesOptions word ∧ word ≠ "--" then do
      let _ ← Arguments.empty.readWord [verbose] word
      ofArguments words
    else .error (.unknownCommand word)

end Command

/-- The exit code when the words are no command. -/
def usageExitCode : UInt32 := 2

/-- Runs the command that words ask for. -/
def runArguments (words : List String) (files : Files) : Outcome :=
  match Command.ofArguments words with
  | .ok command => command.run files
  | .error error => ⟨usageExitCode, "", [error.message], files⟩

end ScreenFlow
