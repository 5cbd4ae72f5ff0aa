import NotebookCell.Pass.Names
import NotebookCell.Pass.Plan

/-!
# Top-level scope

Bindings at the top level of a cell move to the namespace object, so that they outlive the cell:
`let a = 1, b` becomes `void ((__global.a = 1), (__global.b = undefined))`. A `var` moves from
wherever the walk meets it, since it belongs to the enclosing function; `let`, `const` and classes move
only when they stand directly in the body; functions move wherever they are met. If the last statement
is an expression, its value is returned.
-/

namespace NotebookCell

open Planner

def namespaceDot : List Char := (namespaceName ++ ".").toList

/-- What a walk does at a node, once it knows the node's parent. -/
abbrev ScopeVisit := SyntaxTree → Planner Unit

/-- The end of the chain of nodes that a pattern's element leads to: the identifier that it binds, if
it binds one. -/
def boundTarget (element : SyntaxTree) : Planner (Option SyntaxTree) :=
  if element.kind == "assignment_pattern" then pure (element.child? "left")
  else if element.kind == "rest_pattern" then return some (← ask element.firstConstruct)
  else pure (some element)

/-- Moves the identifier that a pattern's element binds, if it binds one. -/
def planQualified (doc : Document) (element : SyntaxTree) : Planner Unit := do
  match ← boundTarget element with
  | none => pure ()
  | some target => if target.kind == "identifier" then before doc target namespaceDot

def unqualified (walk : Planner Unit) : Planner Unit := do
  let flag ← qualifying
  setQualifying false
  walk
  setQualifying flag

def planNamed (doc : Document) (node : SyntaxTree) : Planner Unit := do
  let name ← ask (doc.nodeText (← need node "name"))
  before doc node ("void (".toList ++ namespaceDot ++ name ++ ['='])
  after doc node ");".toList

def declarationKind (doc : Document) (node : SyntaxTree) : Planner (List Char) :=
  match node.child? "kind" with
  | some kind => ask (doc.nodeText kind)
  | none =>
    match node.children.head? with
    | some token => ask (doc.nodeText token)
    | none => throw (.tree (.noChild node.kind))

def planDeclarator (doc : Document) (node : SyntaxTree) : Planner Unit := do
  before doc node ['(']
  if (node.child? "value").isSome then after doc node [')']
  else after doc node " = undefined)".toList

def planDeclaration (doc : Document) (node : SyntaxTree) : Planner Unit := do
  let declarators := node.constructs.filter fun child => child.kind == "variable_declarator"
  match declarators.head?, declarators.getLast? with
  | some first, some last =>
    between (← ask (doc.start node)) (← ask (doc.start first)) "void (".toList
    declarators.forM (planDeclarator doc)
    after doc last [')']
  | _, _ => do
    let _ ← ask (doc.start node)
    throw (.tree (.noChild node.kind))

/-- Moves the names that the properties of an object pattern bind directly. -/
def planProperty (doc : Document) (property : SyntaxTree) : Planner Unit := do
  let property ←
    if property.kind == "object_assignment_pattern" then need property "left" else pure property
  if property.kind == "shorthand_property_identifier_pattern" then
    let name ← ask (doc.nodeText property)
    after doc property (':' :: (namespaceDot ++ name))
  else if property.kind == "pair_pattern" then planQualified doc (← need property "value")
  else if property.kind == "rest_pattern" then planQualified doc property

abbrev ScopeChild := SyntaxTree × ScopeVisit

def visitDeclaration (doc : Document) (node : SyntaxTree) (atTop : Bool) (children : List Walked) :
    Planner Unit := do
  let qualify := (← declarationKind doc node) == "var".toList || atTop
  setQualifying qualify
  walkAll children
  setQualifying false
  if qualify then planDeclaration doc node

/-- The visit of one declarator: its pattern, its value, and its name. -/
def visitDeclarator (doc : Document) (node : SyntaxTree) (children : List Walked) : Planner Unit := do
  let name ← need node "name"
  walkField node children "name"
  if (node.child? "value").isSome then unqualified (walkField node children "value")
  if (← qualifying) && name.kind == "identifier" then before doc name namespaceDot

def visitDefault (node : SyntaxTree) (children : List Walked) : Planner Unit := do
  walkField node children "left"
  unqualified (walkField node children "right")

/-- Whether the head of a loop over items or keys declares by `var`. -/
def declaresVar (doc : Document) (node : SyntaxTree) : Planner Bool :=
  match node.child? "kind" with
  | none => pure false
  | some kind => do return (← ask (doc.nodeText kind)) == "var".toList

/-- The visit of a loop over the items or keys of an object. A `var` in its head binds in the
function, hence in the namespace, and loses its keyword. -/
def visitForIn (doc : Document) (node : SyntaxTree) (children : List Walked) : Planner Unit := do
  if ← declaresVar doc node then
    let kind ← need node "kind"
    let start ← ask (doc.start kind)
    let left ← need node "left"
    between start (← ask (doc.start left)) []
    setQualifying true
    walkField node children "left"
    if left.kind == "identifier" then before doc left namespaceDot
    setQualifying false
    walkAll (children.filter fun child => !child.1.sameNode left)
  else walkAll children

/-- The scope pass at one node of the tree with root `body`. -/
def visitScope (doc : Document) (body node : SyntaxTree) (children : List ScopeChild) : ScopeVisit :=
  fun parent =>
    let children := children.map fun child => (child.1, child.2 node)
    let atTop := parent.sameNode body
    if node.kind == "class_declaration" then do
      walkAll children
      if atTop then planNamed doc node
    else if functionDeclarationKinds.contains node.kind then planNamed doc node
    else if node.kind == "lexical_declaration" || node.kind == "variable_declaration" then
      visitDeclaration doc node atTop children
    else if node.kind == "variable_declarator" then visitDeclarator doc node children
    else if node.kind == "object_pattern" then do
      walkAll children
      if ← qualifying then node.constructs.forM (planProperty doc)
    else if node.kind == "array_pattern" then do
      walkAll children
      if ← qualifying then node.constructs.forM (planQualified doc)
    else if node.kind == "assignment_pattern" || node.kind == "object_assignment_pattern" then
      visitDefault node children
    else if node.kind == "for_in_statement" then visitForIn doc node children
    else if scopeKinds.contains node.kind then pure ()
    else walkAll children

def planReturn (doc : Document) (body : SyntaxTree) : Planner Unit :=
  match body.constructs.getLast? with
  | none => pure ()
  | some last => do
    if last.kind == "expression_statement" then
      before doc last "return (".toList
      after doc (← ask last.firstConstruct) [')']

def planScope (doc : Document) (body : SyntaxTree) : Planner Unit := do
  body.fold (visitScope doc body) body
  planReturn doc body

/-- Moves the top-level bindings of a wrapped cell to the namespace and returns its last value. -/
def applyScopePass (source : MappedText) (tree : SyntaxTree) : Except PassError MappedText :=
  editBody planScope source tree

end NotebookCell
