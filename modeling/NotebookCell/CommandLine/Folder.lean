import NotebookCell.Text.Quoted

/-!
# A folder of texts

The files that a run can read and write: those of one folder and of the directories in it that can be
reached. A path may start with `./`; a path through any other directory leads nowhere.
-/

namespace NotebookCell.CommandLine

inductive FileError where
  | notFound (name : String)
deriving DecidableEq

def FileError.message : FileError → String
  | .notFound name => s!"[Errno 2] No such file or directory: {Text.quoted name.toList}"

/-- Names with texts, and the directories that can be reached, each with the slash at its end. -/
structure Folder where
  files : List (String × String) := []
  directories : List String := []
deriving Inhabited

namespace Folder

/-- The directory in a path, with the slash at its end; empty if there is none. -/
def directoryOf (path : List Char) : List Char := (path.reverse.dropWhile (· != '/')).reverse

def plainPath (path : String) : List Char :=
  match path.toList with
  | '.' :: '/' :: rest => rest
  | chars => chars

/-- The name under which the folder holds what a path leads to, if it can lead to a file. -/
def entry? (folder : Folder) (path : String) : Option String :=
  let name := plainPath path
  let directory := String.ofList (directoryOf name)
  if name.isEmpty || !(directory.isEmpty || folder.directories.contains directory) then none
  else some (String.ofList name)

def read (folder : Folder) (path : String) : Except FileError String :=
  match folder.entry? path >>= fun name => folder.files.lookup name with
  | some text => .ok text
  | none => .error (.notFound path)

def write (folder : Folder) (path text : String) : Except FileError Folder :=
  match folder.entry? path with
  | none => .error (.notFound path)
  | some name =>
    .ok { folder with files := (folder.files.filter fun file => file.1 != name) ++ [(name, text)] }

end Folder

end NotebookCell.CommandLine
