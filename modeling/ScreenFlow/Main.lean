import ScreenFlow.Command.Arguments

/-!
# The program

Fetches the files that a command reads, runs the command on them and carries out its outcome.
-/

namespace ScreenFlow.Program

/-- The words of the operating system for an error. -/
def reason : IO.Error → String
  | .noFileOrDirectory .. => Files.notFound
  | .inappropriateType .. => Files.isDirectory
  | error => toString error

/-- Fetches what stands at a path. -/
def fetch (path : String) : IO (Except String String) :=
  try
    return .ok (← IO.FS.readFile path)
  catch error => return .error (reason error)

/-- The files at some paths; a path that can be read leads to an entry of its own name. -/
def fetchAll (paths : List String) : IO Files := do
  let fetched ← paths.mapM fun path => return (path, ← fetch path)
  return {
    contents := fetched.filterMap fun (path, text) => text.toOption.map fun text => (path, text)
    source := fun path =>
      match fetched.lookup path with
      | some (.error why) => .error why
      | _ => .ok path
    target := .ok }

/-- Stores what a command has written, or runs it again where that cannot be stored. -/
def store (command : Command) (files : Files) (outcome : Outcome) : IO Outcome := do
  match command.output?.filter fun _ => outcome.exitCode = 0 with
  | none => return outcome
  | some path =>
    try
      IO.FS.writeFile path ((outcome.files.contents.get? path).getD "")
      return outcome
    catch error => return command.run { files with target := fun _ => .error (reason error) }

end ScreenFlow.Program

open ScreenFlow in
/-- Reads the command line, runs the command and answers with its exit code. -/
def main (words : List String) : IO UInt32 := do
  let outcome ←
    match Command.ofArguments words with
    | .error _ => pure (runArguments words (.ofDirectory []))
    | .ok command => do
      let files ← Program.fetchAll command.inputs
      Program.store command files (command.run files)
  outcome.stderr.forM fun line => IO.eprintln line
  IO.print outcome.stdout
  return outcome.exitCode
