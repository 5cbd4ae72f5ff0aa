import Mathlib.Tactic.MkIffOfInductiveProp
import NotebookCell.Pass.Scope
import NotebookCell.Proofs.Edit.Parts

/-!
# What the scope pass means

The text of a node after the scope pass, from the texts of its children. Nothing is edited here: a
rendering joins pieces, and text that no rule speaks of is copied.
-/

namespace NotebookCell

inductive NameMode where
  | off
  /-- Those that patterns in the node bind move to the namespace. -/
  | on
  | bound
  /-- The node is a property of an object pattern whose names move. -/
  | property
deriving DecidableEq

namespace NameMode

/-- The mode `target`, unless names stay. -/
def into (mode target : NameMode) : NameMode := if mode = off then off else target

/-- The mode inside a node that binds nothing by itself. -/
def inner (mode : NameMode) : NameMode := mode.into on

def flag (mode : NameMode) : Bool := mode != off

end NameMode

/-- The text of a node, given whether the node stands directly in the body and how names are
treated. -/
abbrev Rendering := Bool → NameMode → MappedText

/-- The children of a node that are rendered; everything else in it is copied. -/
def rendersChild (node child : SyntaxTree) : Bool :=
  if node.kind == "variable_declarator" then child.isField "name" || child.isField "value"
  else if node.kind == "assignment_pattern" || node.kind == "object_assignment_pattern" then
    child.isField "left" || child.isField "right"
  else child.isConstruct

def childMode (node : SyntaxTree) (mode : NameMode) (child : SyntaxTree) : NameMode :=
  if node.kind == "variable_declarator" then
    if child.isField "name" then mode.into .bound else .off
  else if node.kind == "assignment_pattern" then
    if child.isField "left" then if mode = .bound then .bound else mode.inner else .off
  else if node.kind == "object_assignment_pattern" then
    if child.isField "left" then if mode = .property then .property else mode.inner else .off
  else if node.kind == "object_pattern" then mode.into .property
  else if node.kind == "array_pattern" then mode.into .bound
  else if node.kind == "pair_pattern" then
    if mode = .property ∧ child.isField "value" then .bound else mode.inner
  else if node.kind == "rest_pattern" then
    if mode = .bound ∨ mode = .property then .bound else mode.inner
  else mode.inner

namespace Document

def keyword (doc : Document) (node : SyntaxTree) : List Char :=
  match node.child? "kind" with
  | some kind => doc.spelling kind
  | none => (node.children.head?.map doc.spelling).getD []

def declaredName (doc : Document) (node : SyntaxTree) : List Char :=
  ((node.child? "name").map doc.spelling).getD []

def assigned (doc : Document) (node : SyntaxTree) (text : MappedText) : MappedText :=
  .ofString "void (" ++ .ofChars (namespaceDot ++ doc.declaredName node) none ++ .ofString "=" ++
    text ++ .ofString ");"

end Document

def Document.parts (doc : Document) (shown : SyntaxTree → Bool)
    (text : SyntaxTree → Rendering → MappedText) (children : List (SyntaxTree × Rendering)) :
    List Piece :=
  (children.filter fun child => shown child.1).map fun child =>
    { start := doc.first child.1, stop := doc.past child.1, text := text child.1 child.2 }

section Node

variable (doc : Document) (source : MappedText) (node : SyntaxTree)
  (children : List (SyntaxTree × Rendering))

def copied : MappedText := source.segment (doc.first node) (doc.past node)

/-- The text of a node in which the children are rendered and the rest is copied. -/
def renderInside (mode : NameMode) : MappedText :=
  Piece.splice source (doc.first node) (doc.past node)
    (doc.parts (rendersChild node)
      (fun child render => render false (childMode node mode child)) children)

def renderDeclarator (declarator : SyntaxTree) (text : MappedText) : MappedText :=
  .ofString "(" ++ text ++
    .ofString (if (declarator.child? "value").isSome then ")" else " = undefined)")

/-- The text of a declaration that moves its names: the keyword gives way, and every declarator
becomes an assignment. -/
def renderMoved : MappedText :=
  match node.constructs.head?, node.constructs.getLast? with
  | some first, some last =>
    .ofChars "void (".toList (source.cell (doc.first node)).firstOrigin ++
      Piece.splice source (doc.first first) (doc.past last)
        (doc.parts SyntaxTree.isConstruct
          (fun child render => renderDeclarator child (render false .on)) children) ++
      .ofString ")" ++ source.segment (doc.past last) (doc.past node)
  | _, _ => copied doc source node

/-- The text of a loop over items or keys whose head declares by `var`: the keyword goes, and the
target moves. -/
def renderLoop : MappedText :=
  match node.child? "kind", node.child? "left" with
  | some kind, some left =>
    source.segment (doc.first node) (doc.first kind) ++
      Piece.splice source (doc.first left) (doc.past node)
        (doc.parts SyntaxTree.isConstruct
          (fun child render => render false (if child.sameNode left then .bound else .off)) children)
  | _, _ => copied doc source node

def renderNode : Rendering := fun top mode =>
  if node.kind == "class_declaration" then
    if top then doc.assigned node (renderInside doc source node children mode)
    else renderInside doc source node children mode
  else if functionDeclarationKinds.contains node.kind then
    doc.assigned node (copied doc source node)
  else if node.kind == "lexical_declaration" || node.kind == "variable_declaration" then
    if doc.keyword node == "var".toList || top then renderMoved doc source node children
    else renderInside doc source node children mode
  else if node.kind == "for_in_statement" &&
      (node.child? "kind").any (fun kind => doc.spelling kind == "var".toList) then
    renderLoop doc source node children
  else if scopeKinds.contains node.kind then copied doc source node
  else if node.kind == "identifier" && mode == .bound then
    .ofChars namespaceDot none ++ renderInside doc source node children mode
  else if node.kind == "shorthand_property_identifier_pattern" && mode == .property then
    renderInside doc source node children mode ++
      .ofChars (':' :: (namespaceDot ++ doc.spelling node)) none
  else renderInside doc source node children mode

end Node

def renderScope (doc : Document) (source : MappedText) (node : SyntaxTree) : Rendering :=
  node.fold (renderNode doc source)

/-- The text of a last statement that is an expression: its value is returned. -/
def renderReturned (doc : Document) (source : MappedText) (statement : SyntaxTree) : MappedText :=
  .ofString "return (" ++ Piece.splice source (doc.first statement) (doc.past statement)
    (doc.pieces (fun part =>
      renderScope doc source part false .off ++
        (if statement.constructs.head?.any part.sameNode then MappedText.ofString ")" else []))
      statement.constructs)

def renderStatement (doc : Document) (source : MappedText) (body statement : SyntaxTree) :
    MappedText :=
  if statement.kind == "expression_statement" && body.constructs.getLast?.any statement.sameNode
  then renderReturned doc source statement
  else renderScope doc source statement true .off

def renderBody (doc : Document) (source : MappedText) (body : SyntaxTree) : MappedText :=
  Piece.splice source (doc.first body) (doc.past body)
    (doc.pieces (renderStatement doc source body) body.constructs)

/-! ### Well-formed trees -/

/-- The kinds of node that a declarator or the head of a loop does not hold, except in a function. -/
def statementKinds : List String :=
  ["class_declaration", "function_declaration", "generator_function_declaration",
    "lexical_declaration", "variable_declaration", "for_in_statement"]

namespace SyntaxTree

/-- A node of such a kind is reached without entering a function. -/
def exposes (tree : SyntaxTree) : Bool :=
  tree.fold fun node children =>
    !scopeKinds.contains node.kind &&
      (statementKinds.contains node.kind || children.any fun child => child.2)

/-- The children held under the field `name`. -/
def fields (tree : SyntaxTree) (name : String) : List SyntaxTree := tree.children.filter (isField name)

/-- The node can stand for what a pattern binds without a further look into it. -/
def isTarget (tree : SyntaxTree) : Bool :=
  tree.kind != "assignment_pattern" && tree.kind != "rest_pattern"

/-- A keyword stands in front of the declarators, and nothing but them is a construct; they hold no
statements. -/
def IsDeclaration (node : SyntaxTree) : Prop :=
  (node.children.head?.any fun keyword => !keyword.isConstruct) ∧
    (∀ child ∈ node.children.tail, child.isField "kind" = false) ∧ node.constructs ≠ [] ∧
    ∀ child ∈ node.constructs, child.kind = "variable_declarator" ∧ child.exposes = false

def IsDeclarator (node : SyntaxTree) : Prop :=
  (node.fields "name").length = 1 ∧ (node.fields "value").length ≤ 1 ∧
    ∀ name ∈ node.fields "name", name.isTarget

/-- A pattern with a default has one part on either side. Neither a rest nor a default has a default. -/
def IsDefault (node : SyntaxTree) : Prop :=
  (node.fields "left").length = 1 ∧ (node.fields "right").length = 1 ∧
    ∀ left ∈ node.fields "left", left.isTarget ∧ left.kind ≠ "object_assignment_pattern"

end SyntaxTree

/-- A loop whose head declares by `var` has its target behind the keyword, first of all constructs. -/
def Document.IsForIn (doc : Document) (node : SyntaxTree) : Prop :=
  ∀ kind ∈ node.child? "kind", doc.spelling kind = "var".toList →
    (node.child? "left").isSome ∧ ∀ left ∈ node.child? "left",
      left.isConstruct ∧ left.isTarget ∧ left.exposes = false ∧ doc.past kind ≤ doc.first left ∧
        ∀ child ∈ node.constructs, doc.first left ≤ doc.first child

/-- The children of a node stand in order, and they are what its kind needs. -/
@[mk_iff] structure Document.Shaped (doc : Document) (node : SyntaxTree) : Prop where
  ordered : doc.Ordered node
  block : node.kind = "statement_block" → ∀ child ∈ node.constructs,
    doc.past child - doc.first child < doc.past node - doc.first node
  named : node.kind = "class_declaration" ∨ node.kind ∈ functionDeclarationKinds →
    (node.child? "name").isSome
  declaration : node.kind = "lexical_declaration" ∨ node.kind = "variable_declaration" →
    node.IsDeclaration
  declarator : node.kind = "variable_declarator" → node.IsDeclarator
  withDefault : node.kind = "assignment_pattern" ∨ node.kind = "object_assignment_pattern" →
    node.IsDefault
  pair : node.kind = "pair_pattern" →
    (node.fields "value").length = 1 ∧ ∀ value ∈ node.fields "value", value.isConstruct
  rest : node.kind = "rest_pattern" →
    node.constructs.length = 1 ∧ ∀ part ∈ node.constructs, part.isTarget
  forIn : node.kind = "for_in_statement" → doc.IsForIn node
  statement : node.kind = "expression_statement" → node.constructs ≠ []

/-- A node covers characters, and it and all nodes in it have their shape. -/
def Document.WellFormed (doc : Document) (node : SyntaxTree) : Prop :=
  doc.Covers node ∧ ∀ part ∈ node.nodes, doc.Shaped part

section Decide

variable (doc : Document) (node : SyntaxTree)

instance : Decidable node.IsDeclaration := inferInstanceAs (Decidable (_ ∧ _ ∧ _ ∧ _))

instance : Decidable node.IsDeclarator := inferInstanceAs (Decidable (_ ∧ _ ∧ _))

instance : Decidable node.IsDefault := inferInstanceAs (Decidable (_ ∧ _ ∧ _))

instance : Decidable (doc.IsForIn node) :=
  inferInstanceAs (Decidable (∀ kind ∈ node.child? "kind", _ → _ ∧ ∀ left ∈ node.child? "left", _))

instance : Decidable (doc.Shaped node) := decidable_of_iff' _ (Document.shaped_iff doc node)

instance : Decidable (doc.WellFormed node) := inferInstanceAs (Decidable (_ ∧ _))

end Decide

end NotebookCell
