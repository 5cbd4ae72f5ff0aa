import NotebookCell.Cell.History
import NotebookCell.Pass.Imports
import NotebookCell.Pass.Scope

/-!
# Transpiling a cell

A cell takes an id, is wrapped, goes through the import pass and the scope pass, each on a fresh tree,
and is stored in the history. A cell that fails has used its id and stores nothing.
-/

namespace NotebookCell

/-- Where trees come from: `prepared` ones are handed out first, whatever the text; after that `grammar`
reads the text. -/
structure TreeSource where
  prepared : List SyntaxTree := []
  grammar : List Char → SyntaxTree

def TreeSource.next (trees : TreeSource) (text : List Char) : SyntaxTree × TreeSource :=
  match trees.prepared with
  | tree :: rest => (tree, { trees with prepared := rest })
  | [] => (trees.grammar text, trees)

inductive LogEntry where
  | transpiling (id : Int) (name : Option String) (size : Nat)
  | importPass (before after : Nat)
  | scopePass (before after : Nat)
  | evicted (id : Int)
deriving DecidableEq

def LogEntry.render : LogEntry → String
  | .transpiling id name size =>
    let shown := name.getD "None"
    s!"DEBUG:cellmap.transpiler.pipeline:transpiling cell #{id} ({shown}, {size} chars)"
  | .importPass before after =>
    s!"DEBUG:cellmap.transpiler.rewrite:import pass: {before} -> {after} chars"
  | .scopePass before after =>
    s!"DEBUG:cellmap.transpiler.rewrite:scope pass: {before} -> {after} chars"
  | .evicted id => s!"DEBUG:cellmap.transpiler.pipeline:evicted transpilation record #{id}"

/-- The outcome of a transpilation: the record or what went wrong, the history and the tree source
after it, and the log. -/
structure Transpilation where
  result : Except PassError CellRecord
  history : History
  trees : TreeSource
  log : List LogEntry

/-- The source of a cell's record: the edited text and the line with its address. -/
def finishedSource (id : Nat) (edited : MappedText) : MappedText :=
  edited ++ MappedText.ofString (sourceUrlMarker id)

def transpileCell (trees : TreeSource) (history : History) (code : String) (name : Option String) :
    Transpilation :=
  let (id, history) := history.nextId
  let file : SourceFile := { id, name, text := code }
  let wrapped := wrapCell file.mapped id name
  let log := [LogEntry.transpiling id name file.mapped.length]
  let (tree, trees) := trees.next wrapped.chars
  match applyImportPass wrapped tree with
  | .error e => { result := .error e, history, trees, log }
  | .ok imported =>
    let log := log ++ [.importPass wrapped.length imported.length]
    let (tree, trees) := trees.next imported.chars
    match applyScopePass imported tree with
    | .error e => { result := .error e, history, trees, log }
    | .ok moved =>
      let record := CellRecord.ofSource id name (finishedSource id moved)
      { result := .ok record
        history := history.add record
        trees
        log := log ++ .scopePass imported.length moved.length ::
          (history.evicted record).map fun gone => .evicted gone.id }

end NotebookCell
