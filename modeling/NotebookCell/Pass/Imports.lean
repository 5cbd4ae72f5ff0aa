import NotebookCell.Pass.Names
import NotebookCell.Pass.Plan

/-!
# Imports

Every import that runs with the cell becomes an awaited call of the import function, its bindings
taken out of the module by destructuring: `import d, {a as b} from "m"` becomes
`var {_:{default:d},_:{a:b}} = {_:await __import("m")};`. The walk does not enter functions.
-/

namespace NotebookCell

open Planner

/-- The node that names the module of an import, or nothing where the clause for it has none. -/
def importSpecifierOf (doc : Document) (node : SyntaxTree) : Planner (Option SyntaxTree) :=
  match node.child? "source" with
  | some source => pure (some source)
  | none =>
    match node.constructs.find? fun child => child.kind == "from_clause" with
    | some clause => pure (clause.child? "source")
    | none => do throw (.noSpecifier (← ask (doc.start node)))

def needSpecifier : Option SyntaxTree → Planner SyntaxTree
  | some source => pure source
  | none => throw (.tree (.noField "from_clause" "source"))

def bindingsOfClauseItem (item : SyntaxTree) : List SyntaxTree :=
  if item.kind == "named_imports" then
    item.constructs.filter fun child => child.kind == "import_specifier"
  else [item]

def importBindings (node : SyntaxTree) : List SyntaxTree :=
  (node.constructs.filter fun child => child.kind == "import_clause").flatMap fun clause =>
    clause.constructs.flatMap bindingsOfClauseItem

/-- Plans a comma between each two bindings, and gives the last of them. -/
def joinBindings (doc : Document) (current : SyntaxTree) : List SyntaxTree → Planner SyntaxTree
  | [] => pure current
  | binding :: rest => do
    between (← ask (doc.stop current)) (← ask (doc.start binding)) [',']
    joinBindings doc binding rest

/-- Plans the frame of an import: what stands before, between and after its bindings. -/
def planImportStatement (doc : Document) (node : SyntaxTree) : Planner Unit := do
  let found ← importSpecifierOf doc node
  match importBindings node with
  | first :: rest =>
    between (← ask (doc.start node)) (← ask (doc.start first)) "var \x7b".toList
    let last ← joinBindings doc first rest
    let stop ← ask (doc.stop last)
    let source ← needSpecifier found
    between stop (← ask (doc.start source)) ("\x7d = \x7b_:await " ++ importName ++ "(").toList
    between (← ask (doc.stop source)) (← ask (doc.stop node)) ")\x7d;".toList
  | [] =>
    let start ← ask (doc.start node)
    let source ← needSpecifier found
    between start (← ask (doc.start source)) ("await " ++ importName ++ "(").toList
    between (← ask (doc.stop source)) (← ask (doc.stop node)) ");".toList

def planDefaultBindings (doc : Document) (node : SyntaxTree) : Planner Unit :=
  (node.constructs.filter fun child => child.kind == "identifier").forM fun child => do
    before doc child "_:\x7bdefault:".toList
    after doc child ['}']

/-- Plans a named binding: `a` becomes `_:{a}`, and `a as b` becomes `_:{a:b}`. -/
def planNamedBinding (doc : Document) (node : SyntaxTree) : Planner Unit := do
  before doc node "_:\x7b".toList
  match node.child? "alias" with
  | none => pure ()
  | some localName =>
    let name ← need node "name"
    between (← ask (doc.stop name)) (← ask (doc.start localName)) [':']
  after doc node ['}']

/-- Plans a namespace binding: `* as n` becomes `_:n`. -/
def planNamespaceBinding (doc : Document) (node : SyntaxTree) : Planner Unit := do
  match node.constructs.getLast? with
  | none => throw (.tree (.noChild node.kind))
  | some localName => between (← ask (doc.start node)) (← ask (doc.start localName)) "_:".toList

def visitImports (doc : Document) (node : SyntaxTree) (children : List Walked) : Planner Unit :=
  if node.kind == "import_statement" then do
    planImportStatement doc node
    walkAll children
  else if node.kind == "import_clause" then do
    planDefaultBindings doc node
    walkAll children
  else if node.kind == "import_specifier" then planNamedBinding doc node
  else if node.kind == "namespace_import" then planNamespaceBinding doc node
  else if functionDeclarationKinds.contains node.kind || scopeKinds.contains node.kind then pure ()
  else walkAll children

def planImports (doc : Document) (body : SyntaxTree) : Planner Unit :=
  body.fold (visitImports doc)

/-- Turns every import that runs with a wrapped cell into an awaited call. -/
def applyImportPass (source : MappedText) (tree : SyntaxTree) : Except PassError MappedText :=
  editBody planImports source tree

end NotebookCell
