import NotebookCell.CommandLine.Folder
import NotebookCell.CommandLine.Options
import NotebookCell.CommandLine.Repl
import NotebookCell.SourceMap.Document

/-!
# A run of the program

A run transpiles one cell, from a file or from the standard input, or starts the shell. What it prints,
logs and writes is a value; so is the way in which it ends.
-/

namespace NotebookCell.CommandLine

inductive RunError where
  | file (error : FileError)
  | work (error : WorkError)
deriving DecidableEq

/-- How a run ends: with a status, or with an error that nobody handles. `stopped` ends come from the
arguments alone. -/
inductive Ending where
  | returned (status : Nat)
  | stopped (status : Nat)
  | failed (error : RunError)
deriving DecidableEq

structure Run where
  stdout : String := ""
  stderr : String := ""
  folder : Folder
  ending : Ending

structure Surroundings where
  stdin : String
  folder : Folder
  trees : TreeSource

def usageText : String :=
  "usage: cellmap [-h] [--name NAME] [--positions] [--source-map OUTPUT] [--history-limit N] " ++
    "[--repl] [--verbose] [file]\n"

def logText (options : Options) (log : List LogEntry) : String :=
  if options.verbose then String.join (log.map fun entry => entry.render ++ "\n") else ""

def padLeft (width : Nat) (text : String) : String :=
  String.ofList (List.replicate (width - text.length) ' ') ++ text

def padRight (width : Nat) (text : String) : String :=
  text ++ String.ofList (List.replicate (width - text.length) ' ')

def positionLine (source : MappedText) (number : Nat) (line : List Char) : String :=
  let origin := if line.isEmpty then none else locate source number 1
  let place := match origin with
    | some origin => origin.format true
    | none => "(synthetic)"
  s!"{padLeft 4 (toString number)} {padRight 24 place} | {String.ofList line}\n"

def positionLines (source : MappedText) (number : Nat) : List (List Char) → String
  | [] => ""
  | line :: lines => positionLine source number line ++ positionLines source (number + 1) lines

def recordText (options : Options) (record : CellRecord) : String :=
  if options.positions then positionLines record.source 1 (Text.splitLines record.code.toList)
  else record.code ++ "\n"

def exportedLine (path : String) : String := s!"  ✓ Source map exported → {path}\n"

def runCell (options : Options) (around : Surroundings) (code name : String) : Run :=
  let done := transpileCell around.trees {} code (some name)
  let log := logText options done.log
  let folder := around.folder
  match done.result with
  | .error error =>
    match error.fault? with
    | some fault => { stderr := log ++ s!"✗ {fault.describe}\n", folder, ending := .returned 1 }
    | none => { stderr := log, folder, ending := .failed (.work (.pass error)) }
  | .ok record =>
    let stdout := recordText options record
    match nonEmptyName options.sourceMap with
    | none => { stdout, stderr := log, folder, ending := .returned 0 }
    | some path =>
      match folder.write path record.sourceMap.render with
      | .ok folder =>
        { stdout := stdout ++ exportedLine path, stderr := log, folder, ending := .returned 0 }
      | .error error => { stdout, stderr := log, folder, ending := .failed (.file error) }

def runShell (options : Options) (around : Surroundings) (history : History) : Run :=
  let turn := ({ history, trees := around.trees : Shell }).session around.stdin.toList
  { stdout := turn.output
    stderr := logText options turn.log
    folder := around.folder
    ending := match turn.next with
      | .failed error => .failed (.work error)
      | _ => .returned 0 }

/-- A text as a run reads it: every line ending counts as one line feed. -/
def readText (text : String) : String := String.ofList (Text.universalNewlines text.toList)

def runOptions (options : Options) (around : Surroundings) : Run :=
  if options.repl then
    runShell options around { limit := options.historyLimit.map Int.toNat }
  else if options.file == "-" then
    runCell options around (readText around.stdin) ((nonEmptyName options.name).getD "<stdin>")
  else
    match around.folder.read options.file with
    | .ok text =>
      runCell options around (readText text) ((nonEmptyName options.name).getD options.file)
    | .error error => { folder := around.folder, ending := .failed (.file error) }

def run (arguments : List String) (around : Surroundings) : Run :=
  match parseArguments arguments with
  | .ok options => runOptions options around
  | .error .help => { stdout := usageText, folder := around.folder, ending := .stopped 0 }
  | .error (.usage error) =>
    { stderr := usageText ++ s!"cellmap: error: {error.message}\n"
      folder := around.folder
      ending := .stopped 2 }

end NotebookCell.CommandLine
