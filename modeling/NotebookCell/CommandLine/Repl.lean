import NotebookCell.Cell.Transpile
import NotebookCell.SourceMap.Build
import NotebookCell.Text.Integer
import NotebookCell.Trace.Format

/-!
# The interactive shell

A line that does not start with a colon is a cell, and is transpiled. The others are commands, which
read the history and leave it as it is. After `:stack`, lines are collected up to a blank one and
printed as a stack trace in terms of cells.
-/

namespace NotebookCell

def PassError.fault? : PassError → Option SyntaxFault
  | .parse (.fault fault) => if fault.isShown then some fault else none
  | _ => none

namespace CommandLine

/-- The shell between two lines: the history, the source of trees, and the lines of a stack trace that
is being pasted. -/
structure Shell where
  history : History
  trees : TreeSource
  pasted : Option (List (List Char)) := none

inductive WorkError where
  | pass (error : PassError)
  | trace (error : TraceError)
deriving DecidableEq

inductive ShellNext where
  | waiting
  | finished
  | failed (error : WorkError)
deriving DecidableEq

/-- What a line did: the shell after it, what was printed and logged, and how to go on. -/
structure ShellTurn where
  shell : Shell
  output : String := ""
  log : List LogEntry := []
  next : ShellNext := .waiting

def prompt : String := "cell> "

def greeting : String := "cellmap REPL — enter a cell per line (:help for help)\n"

/-- The record that a command is about, or the reason why there is none: the latest one, or the one
with the id that the command gives. -/
def findRecord (history : History) (token : Option (List Char)) : Except String CellRecord :=
  match history.latest? with
  | none => .error "No transpiled cells yet."
  | some latest =>
    match token with
    | none => .ok latest
    | some token =>
      match Text.integer? token with
      | none => .error "Cell index must be an integer."
      | some id =>
        match history.get? id with
        | none => .error s!"No cached cell #{id}."
        | some record => .ok record

/-- One line per record: its id and its name. -/
def listRecords (history : History) : String :=
  String.join (history.records.map fun record =>
    s!"[#{record.id}] " ++ record.name.getD "" ++ "\n")

def helpText (history : History) : String :=
  let limit := match history.limit with
    | none => "all"
    | some limit => toString limit
  "Commands: :help, :quit, :history, :show [n], :map [n], :stack\n" ++
    s!"History: {limit} cells retained.\n"

def showRecord (history : History) (token : Option (List Char)) (view : CellRecord → String) :
    String :=
  match findRecord history token with
  | .ok record => view record ++ "\n"
  | .error reason => reason ++ "\n"

namespace Shell

def command (shell : Shell) (name : List Char) (arguments : List (List Char)) : ShellTurn :=
  let token := arguments.head?
  match String.ofList name with
  | ":quit" | ":exit" => { shell, next := .finished }
  | ":help" => { shell, output := helpText shell.history }
  | ":history" => { shell, output := listRecords shell.history }
  | ":show" => { shell, output := showRecord shell.history token CellRecord.code }
  | ":map" =>
    { shell, output := showRecord shell.history token fun record => record.sourceMap.mappings }
  | ":stack" =>
    { shell := { shell with pasted := some [] }
      output := "Paste a stack trace, end with an empty line:\n" }
  | unknown => { shell, output := s!"Unknown command: {unknown}\n" }

def cell (shell : Shell) (line : List Char) : ShellTurn :=
  let done := transpileCell shell.trees shell.history (String.ofList line) (some "<repl>")
  let shell := { shell with history := done.history, trees := done.trees }
  match done.result with
  | .ok record => { shell, output := s!"[#{record.id}]\n{record.code}\n", log := done.log }
  | .error error =>
    match error.fault? with
    | some fault => { shell, output := s!"  ✗ {fault.describe}\n", log := done.log }
    | none => { shell, log := done.log, next := .failed (.pass error) }

/-- Ends the pasting of a stack trace, and prints it in terms of cells. -/
def endPaste (shell : Shell) (lines : List (List Char)) : ShellTurn :=
  let stack := String.ofList (Text.joinWith ['\n'] lines)
  let shell := { shell with pasted := none }
  match shell.history.showError (.text stack) with
  | .ok shown => { shell, output := shown ++ "\n" }
  | .error error => { shell, next := .failed (.trace error) }

def feed (shell : Shell) (line : List Char) : ShellTurn :=
  match shell.pasted with
  | some lines =>
    if (Text.trim line).isEmpty then shell.endPaste lines
    else { shell := { shell with pasted := some (lines ++ [line]) } }
  | none =>
    match Text.words line with
    | [] => { shell }
    | (':' :: name) :: arguments => shell.command (':' :: name) arguments
    | _ => shell.cell line

def close (shell : Shell) : ShellTurn :=
  match shell.pasted with
  | none => { shell, output := "\n", next := .finished }
  | some lines =>
    let turn := shell.endPaste lines
    match turn.next with
    | .waiting => { turn with output := turn.output ++ prompt ++ "\n", next := .finished }
    | _ => turn

def promptNow (shell : Shell) : String :=
  match shell.pasted with
  | none => prompt
  | some _ => ""

/-- Takes lines up to the end of the session. The prompts are part of the output. -/
def run (shell : Shell) : List (List Char) → ShellTurn
  | [] =>
    let turn := shell.close
    { turn with output := shell.promptNow ++ turn.output }
  | line :: lines =>
    let turn := shell.feed line
    match turn.next with
    | .waiting =>
      let rest := turn.shell.run lines
      { rest with
        output := shell.promptNow ++ turn.output ++ rest.output
        log := turn.log ++ rest.log }
    | _ => { turn with output := shell.promptNow ++ turn.output }

def session (shell : Shell) (input : List Char) : ShellTurn :=
  let pieces := Text.splitLines (Text.universalNewlines input)
  let lines := if pieces.getLast? == some [] then pieces.dropLast else pieces
  let turn := shell.run lines
  { turn with output := greeting ++ turn.output }

end Shell

end CommandLine

end NotebookCell
