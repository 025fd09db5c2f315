import Landform.Error
import Landform.Table
import Landform.Text.Runs

/-!
# Files

A set of text files under one directory, and the directories that exist in it. A path is read by its
form alone: empty steps and single dots are skipped, and two dots take back the step before. Every
path stands for its normal form, so that different spellings name the same file.
-/

namespace Landform

namespace Path

/-- The steps of a path between slashes. -/
def steps (path : String) : List String :=
  Text.split '/' path

/-- The steps of a path one after the other, in reverse. -/
def walk : List String → List String → List String
  | walked, [] => walked
  | walked, step :: rest =>
    if step == "" || step == "." then walk walked rest
    else if step == ".." then
      match walked with
      | [] => walk [".."] rest
      | last :: before => if last == ".." then walk (".." :: walked) rest else walk before rest
    else walk (step :: walked) rest

/-- Whether a path starts at the root of all directories. -/
def isAbsolute (path : String) : Bool :=
  path.toList.head? == some '/'

/-- The steps of the normal form of a path. -/
def normalSteps (path : String) : List String :=
  (walk [] (steps path)).reverse

/-- A path from its steps. -/
def ofSteps (absolute : Bool) (steps : List String) : String :=
  (if absolute then "/" else "") ++ "/".intercalate steps

/-- The normal form of a path. -/
def normal (path : String) : String :=
  ofSteps (isAbsolute path) (normalSteps path)

/-- The directory that holds what a path names. -/
def directory (path : String) : String :=
  ofSteps (isAbsolute path) (normalSteps path).dropLast

/-- The path that is meant where it is named in a directory. -/
def within (directory path : String) : String :=
  if isAbsolute path || directory == "" then normal path else normal (directory ++ "/" ++ path)

end Path

/-- Text files by normal path, and the directories besides the one that holds everything. -/
structure Files where
  texts : Table String
  directories : List String

namespace Files

/-- All directories on the way to a path. -/
def directoriesOf (path : String) : List String :=
  let steps := (Path.normalSteps path).dropLast
  (List.range steps.length).map fun n => Path.ofSteps (Path.isAbsolute path) (steps.take (n + 1))

/-- Files by path, and their directories. -/
def ofTexts (texts : Table String) : Files :=
  { texts := texts.map fun entry => (Path.normal entry.1, entry.2)
    directories := texts.flatMap fun entry => directoriesOf entry.1 }

/-- The text of a file. -/
def read (files : Files) (path : String) : Except Error String :=
  match files.texts.get? (Path.normal path) with
  | some text => .ok text
  | none => .error (.missingFile (Path.normal path))

/-- Whether a directory exists. -/
def hasDirectory (files : Files) (directory : String) : Bool :=
  directory == "" || files.directories.contains directory

/-- The files after a text has been written to a path. -/
def write (files : Files) (path text : String) : Except Error Files :=
  if files.hasDirectory (Path.directory path) then
    .ok { files with texts := files.texts.put (Path.normal path) text }
  else .error (.missingFile (Path.normal path))

end Files

end Landform
