import Landform.Command.Run

/-!
# The program

Runs a command line over the files of the current directory. A run works on files that are given
beforehand, so it is repeated with one more file as long as it asks for one that can be read; then
it has read all it needs, and what it printed and wrote is passed on. A directory that is asked for
is taken to exist until writing to it fails.
-/

open Landform

/-- The text of a file on the disk. -/
def readDisk (path : String) : IO (Option String) := do
  try return some (← IO.FS.readFile path)
  catch _ => return none

/-- The path that a run asks for in vain. -/
def askedPath (arguments : Command.Arguments) (files : Files) : Option String :=
  match arguments.settings files with
  | .error (.missingFile path) => some path
  | .error _ => none
  | .ok settings =>
    match (Command.Action.perform settings arguments.command).run ⟨"", files⟩ with
    | .error (.missingFile path) _ => some path
    | _ => none

/-- The files that a command line asks for, read one after the other. -/
partial def gather (arguments : Command.Arguments) (files : Files) : IO Files := do
  match askedPath arguments files with
  | none => return files
  | some path =>
    match ← readDisk path with
    | some text =>
      if (files.texts.get? path).isSome then return files
      gather arguments { files with texts := files.texts.put path text }
    | none =>
      if files.hasDirectory (Path.directory path) then return files
      gather arguments { files with directories := Path.directory path :: files.directories }

/-- Writes the files that a run has changed, and tells whether all could be written. -/
def saveChanges (before after : Files) : IO Bool := do
  try
    after.texts.forM fun (path, text) => do
      if before.texts.get? path != some text then IO.FS.writeFile path text
    return true
  catch _ => return false

/-- Passes on what a run printed. -/
def passOn (outcome : Except Error Command.Report) : IO UInt32 :=
  match outcome with
  | .ok report => do
    IO.print report.output
    IO.eprint report.errors
    return UInt32.ofNat report.exit
  | .error cause => do
    IO.eprintln cause.report
    return 1

def main (args : List String) : IO UInt32 := do
  let unread : Files := ⟨[], []⟩
  let files ← match Command.Arguments.parse args with
    | .ok arguments => gather arguments unread
    | .error _ => pure unread
  let outcome := Command.run args files
  let saved ← match outcome with
    | .ok report => saveChanges files report.files
    | .error _ => pure true
  passOn (if saved then outcome else Command.run args { files with directories := [] })
