import ScreenFlow.Compile.Run
import ScreenFlow.Files

/-!
# Commands

A command reads a snapshot and, where it names one, a table of limits; it compiles or reviews the
screens. What a command does to the world is a value: an exit code, two output streams and the files
afterwards. A command that fails leaves the files as they were.
-/

namespace ScreenFlow

open ScreenFlow.Review (Limits Report)

/-- Compiling a snapshot to a flow document. -/
structure CompileOptions where
  input : String
  /-- Where the document goes; standard output when there is none. -/
  output : Option String
  /-- Whether a document on standard output is indented. -/
  pretty : Bool
  /-- Whether the screens are reviewed and the findings shown. -/
  validate : Bool
  limits : Option String
  deriving DecidableEq, Repr

/-- Reviewing a snapshot. -/
structure ValidateOptions where
  input : String
  limits : Option String
  /-- Whether the report is shown as JSON and not one finding a line. -/
  json : Bool
  deriving DecidableEq, Repr

/-- What can be asked of the program. -/
inductive Command where
  | compile (options : CompileOptions)
  | validate (options : ValidateOptions)
  deriving DecidableEq, Repr

/-- What a command leaves behind. What is only logged, with the time of day, is no part of it: the
warning that a review found errors and compiling goes on, and notes on progress. -/
structure Outcome where
  exitCode : UInt32
  stdout : String
  /-- What goes to standard error, each followed by a line break. -/
  stderr : List String
  files : Files

/-- Why a command fails. -/
inductive Failure where
  | unreadableSnapshot (path reason : String)
  | snapshot (error : Compile.CompileError)
  | limits (error : ConfigError)
  | compilation (error : Compile.CompileError)
  | unwritten (error : DocumentError)
  deriving DecidableEq, Repr

def Failure.message : Failure → String
  | .unreadableSnapshot path reason =>
    "Failed to read editor snapshot '" ++ path ++ "': " ++ reason
  | .snapshot error => "Failed to load screens: " ++ error.message
  | .limits error => "Failed to load limits: " ++ error.message
  | .compilation error => "Compilation failed: " ++ error.message
  | .unwritten error => "Failed to write flow document: " ++ error.message

/-- The outcome of a failure after some lines on standard error. -/
def Outcome.failed (files : Files) (notes : List String) (failure : Failure) : Outcome :=
  ⟨1, "", notes ++ ["\nError: " ++ failure.message], files⟩

/-- The lines that show the findings of a report. -/
def findingLines (report : Report) : List String :=
  report.findings.map fun finding => "  -> " ++ finding.display

/-! ## Loading -/

/-- The screens in a file. -/
def loadScreens (files : Files) (path : String) : Except Failure (List Design.Screen) := do
  let text ← (files.read path).mapError (.unreadableSnapshot path)
  (Design.parseScreens text).mapError fun error => .snapshot (.snapshot error)

/-- The limits in a file, or the limits where nothing else is said. -/
def loadLimitsOrDefault (files : Files) : Option String → Except Failure Limits
  | some path => (loadLimits files path).mapError .limits
  | none => .ok .default

/-- The screens and limits of a command. -/
def loadInputs (files : Files) (input : String) (limits : Option String) :
    Except Failure (List Design.Screen × Limits) := do
  let screens ← loadScreens files input
  let limits ← loadLimitsOrDefault files limits
  return (screens, limits)

/-! ## Running -/

/-- What a command to compile makes of its inputs. -/
def CompileOptions.artifacts (o : CompileOptions) (files : Files) :
    Except Failure Compile.Artifacts := do
  let (screens, limits) ← loadInputs files o.input o.limits
  (Compile.run screens (if o.validate then some limits else none)).mapError .compilation

/-- The line that says where a document went, without the time that the command took, which stands
behind it. -/
def compiledLine (d : Flow.Document) (path : String) : String :=
  "Compiled " ++ toString d.screens.length ++ " screens into '" ++ path ++ "'"

/-- Compiles and hands over the document, after the findings where they are asked for. -/
def CompileOptions.run (o : CompileOptions) (files : Files) : Outcome :=
  match o.artifacts files with
  | .error failure => .failed files [] failure
  | .ok artifacts =>
    let notes := artifacts.report.elim [] findingLines
    match o.output with
    | none => ⟨0, artifacts.document.toText o.pretty ++ "\n", notes, files⟩
    | some path =>
      match saveDocument files path artifacts.document with
      | .error error => .failed files notes (.unwritten error)
      | .ok files => ⟨0, "", notes ++ [compiledLine artifacts.document path], files⟩

/-- The line that sums up a report. -/
def summaryLine (report : Report) (screens : Nat) : String :=
  toString report.errors.length ++ " errors, " ++ toString report.warnings.length ++
    " warnings across " ++ toString screens ++ " screens"

/-- Reviews and shows the report; errors in it make the exit code one. -/
def ValidateOptions.run (o : ValidateOptions) (files : Files) : Outcome :=
  match loadInputs files o.input o.limits with
  | .error failure => .failed files [] failure
  | .ok (screens, limits) =>
    let report := Review.documentReport limits screens
    let exitCode := if report.isValid then 0 else 1
    if o.json then ⟨exitCode, Report.codec.toText report true ++ "\n", [], files⟩
    else ⟨exitCode, summaryLine report screens.length ++ "\n", findingLines report, files⟩

namespace Command

/-- Runs a command on files. -/
def run : Command → Files → Outcome
  | .compile options, files => options.run files
  | .validate options, files => options.run files

/-- The paths that a command reads. -/
def inputs : Command → List String
  | .compile options => options.input :: options.limits.toList
  | .validate options => options.input :: options.limits.toList

/-- The path that a command writes. -/
def output? : Command → Option String
  | .compile options => options.output
  | .validate _ => none

end Command

end ScreenFlow
