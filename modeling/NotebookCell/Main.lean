import NotebookCell.CommandLine.Run
import NotebookCell.Script.Parser

/-!
# The program

The outer layer of the command line: it reads the standard input and the file of a cell, leaves the
work to a run, and prints and writes what the run gives. The shell is fed line by line.
-/

namespace NotebookCell.CommandLine

def printTurn (output log : String) : IO Unit := do
  let stdout ← IO.getStdout
  stdout.putStr output
  stdout.flush
  (← IO.getStderr).putStr log

/-- Prints the reason why a run broke off. -/
def reportFailure : RunError → IO Unit
  | .file error => do (← IO.getStderr).putStrLn error.message
  | .work (.pass error) => do (← IO.getStderr).putStrLn error.message
  | .work (.trace error) => do (← IO.getStderr).putStrLn error.message

/-- The text that is left of an input, behind the text that was read before. -/
partial def readRest (input : IO.FS.Stream) (text : String) : IO String := do
  let line ← input.getLine
  if line.isEmpty then return text else readRest input (text ++ line)

/-- Feeds the shell the lines of the standard input up to the end of the session. -/
partial def converse (options : Options) (shell : Shell) : IO UInt32 := do
  printTurn shell.promptNow ""
  let line ← (← IO.getStdin).getLine
  let text := (Text.universalNewlines line.toList).takeWhile (· != '\n')
  let turn := if line.isEmpty then shell.close else shell.feed text
  printTurn turn.output (logText options turn.log)
  match turn.next with
  | .waiting => converse options turn.shell
  | .finished => return 0
  | .failed error =>
    reportFailure (.work error)
    return 1

def isReachable (directory : String) : IO Bool := do
  try
    let _ ← IO.FS.realPath directory
    return true
  catch _ => return false

def directoriesOf (paths : List String) : IO (List String) :=
  (paths.map fun path => String.ofList (Folder.directoryOf (Folder.plainPath path))).filterM
    isReachable

/-- What a run with the given options finds. A file that cannot be read is left out. -/
def lookAround (options : Options) : IO Surroundings := do
  let stdin ← if options.file == "-" then readRest (← IO.getStdin) "" else pure ""
  let files ←
    if options.file == "-" then pure []
    else
      try
        let text ← IO.FS.readFile options.file
        pure [(String.ofList (Folder.plainPath options.file), text)]
      catch _ => pure []
  let paths := options.file :: options.sourceMap.toList
  return {
    stdin
    folder := { files, directories := ← directoriesOf paths }
    trees := { grammar := Script.parse } }

/-- Prints what a run printed, writes the files that it wrote, and gives its status. -/
def complete (before : Folder) (done : Run) : IO UInt32 := do
  printTurn done.stdout done.stderr
  for (path, text) in done.folder.files do
    if before.files.lookup path != some text then IO.FS.writeFile path text
  match done.ending with
  | .returned status => return status.toUInt32
  | .stopped status => return status.toUInt32
  | .failed error =>
    reportFailure error
    return 1

end NotebookCell.CommandLine

open NotebookCell NotebookCell.CommandLine in
def main (arguments : List String) : IO UInt32 := do
  match parseArguments arguments with
  | .ok options =>
    if options.repl then
      printTurn greeting ""
      converse options
        { history := { limit := options.historyLimit.map Int.toNat }
          trees := { grammar := Script.parse } }
    else
      let around ← lookAround options
      complete around.folder (runOptions options around)
  | .error _ =>
    let around : Surroundings := { stdin := "", folder := {}, trees := { grammar := Script.parse } }
    complete around.folder (run arguments around)
