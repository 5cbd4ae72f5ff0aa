import NotebookCell.Edit.Buffer
import NotebookCell.Syntax.Wrapped

/-!
# Planning edits

A pass walks a tree and plans edits of the text; the edits are made afterwards, in the order
in which they were planned. A pass that fails keeps what it planned up to then, because the first
edit that cannot be made is reported before anything that went wrong later in the walk.
-/

namespace NotebookCell

inductive PassError where
  | parse (error : ParseError)
  | tree (error : TreeError)
  | edit (error : EditError)
  | noSpecifier (offset : Nat)
deriving DecidableEq

def PassError.message : PassError → String
  | .parse (.fault fault) => fault.message
  | .parse (.tree error) => error.message
  | .tree error => error.message
  | .edit error => error.message
  | .noSpecifier offset => s!"Import at offset {offset} has no module specifier"

/-- What a walk carries along: the edits planned so far, and whether the names that it meets are
being moved to the namespace. -/
structure PlanState where
  edits : List Edit := []
  qualifying : Bool := false
deriving DecidableEq

abbrev Planner (α : Type) := ExceptT PassError (StateM PlanState) α

namespace Planner

def emit (edit : Edit) : Planner Unit :=
  modify fun s => { s with edits := s.edits ++ [edit] }

def qualifying : Planner Bool := return (← get).qualifying

def setQualifying (flag : Bool) : Planner Unit := modify fun s => { s with qualifying := flag }

def ask {α : Type} : Except TreeError α → Planner α
  | .ok a => pure a
  | .error e => throw (.tree e)

/-- The child under a field that the node's kind needs. -/
def need (node : SyntaxTree) (field : String) : Planner SyntaxTree :=
  match node.child? field with
  | some child => pure child
  | none => throw (.tree (.noField node.kind field))

def before (doc : Document) (node : SyntaxTree) (text : List Char) : Planner Unit := do
  emit (.insertBefore (← ask (doc.start node)) (.plain text))

def after (doc : Document) (node : SyntaxTree) (text : List Char) : Planner Unit := do
  emit (.insertAfter (← ask (doc.stop node)) (.plain text))

/-- Plans a text in place of the characters between two offsets. -/
def between (start stop : Nat) (text : List Char) : Planner Unit :=
  emit (.replace start stop (.plain text))

end Planner

abbrev Walked := SyntaxTree × Planner Unit

def walkAll (children : List Walked) : Planner Unit :=
  (children.filter fun child => child.1.isConstruct).forM fun child => child.2

/-- Walks into the child under a field that the node's kind needs. -/
def walkField (node : SyntaxTree) (children : List Walked) (field : String) : Planner Unit :=
  match children.find? fun child => child.1.isField field with
  | some child => child.2
  | none => throw (.tree (.noField node.kind field))

/-- Makes the planned edits, and then reports how the walk ended. -/
def carryOut (source : MappedText) (plan : Planner Unit) : Except PassError MappedText :=
  let (outcome, state) := plan.run.run {}
  match (EditBuffer.ofText source).applyAll state.edits with
  | .error e => .error (.edit e)
  | .ok buffer => outcome.map fun _ => buffer.flush

/-- Reads a text with a tree for it as a wrapped cell, and carries out what `plan` makes of the
body. -/
def editBody (plan : Document → SyntaxTree → Planner Unit) (source : MappedText)
    (tree : SyntaxTree) : Except PassError MappedText :=
  match Document.read source tree with
  | .error e => .error (.parse e)
  | .ok doc =>
    match doc.wrappedBody source with
    | .error e => .error (.parse e)
    | .ok body => carryOut source (plan doc body)

end NotebookCell
