/-!
# Syntax trees

A node has a kind, a range of byte offsets into the UTF-8 form of the text that was parsed, three
flags, and the field under which its parent holds it. Nothing ties the parts of a tree together: a
tree may come from any parser, or be put together by hand.

Every function on trees is written as a pair, one part for a tree and one for a list of trees.
-/

namespace NotebookCell

/-- What a node is, apart from its children. `named` nodes stand for constructs and the others for
plain tokens; a `missing` node was supplied by the parser; `hasError` says that this node or one
below it is at fault. -/
structure NodeInfo where
  kind : String
  start : Nat
  stop : Nat
  named : Bool := true
  missing : Bool := false
  hasError : Bool := false
  field : Option String := none
deriving DecidableEq, Inhabited

inductive SyntaxTree where
  | node (info : NodeInfo) (children : List SyntaxTree)
deriving Inhabited

namespace SyntaxTree

def info : SyntaxTree → NodeInfo
  | .node info _ => info

def children : SyntaxTree → List SyntaxTree
  | .node _ children => children

def kind (tree : SyntaxTree) : String := tree.info.kind

/-- The kinds that may stand anywhere in a tree and carry no meaning. -/
def isExtraKind (kind : String) : Bool := kind == "comment" || kind == "html_comment"

/-- The child stands for a construct: it is named and no comment. -/
def isConstruct (tree : SyntaxTree) : Bool := tree.info.named && !isExtraKind tree.kind

def constructs (tree : SyntaxTree) : List SyntaxTree := tree.children.filter isConstruct

/-- The root is held by its parent under the field `name`. -/
def isField (name : String) (tree : SyntaxTree) : Bool := tree.info.field == some name

/-- The first child held under the field `name`. -/
def child? (tree : SyntaxTree) (name : String) : Option SyntaxTree :=
  tree.children.find? (isField name)

/-- Two nodes count as the same when kind and range agree. -/
def sameNode (a b : SyntaxTree) : Bool :=
  a.info.start == b.info.start && a.info.stop == b.info.stop && a.kind == b.kind

def isFault (tree : SyntaxTree) : Bool := tree.kind == "ERROR" || tree.info.missing

mutual

/-- Combines a tree from the bottom up; `f` sees each node with its children and their results. -/
def fold {α : Type} (f : SyntaxTree → List (SyntaxTree × α) → α) : SyntaxTree → α
  | .node info children => f (.node info children) (foldAll f children)

/-- The results of a list of trees, each beside its tree. -/
def foldAll {α : Type} (f : SyntaxTree → List (SyntaxTree × α) → α) :
    List SyntaxTree → List (SyntaxTree × α)
  | [] => []
  | tree :: trees => (tree, fold f tree) :: foldAll f trees

end

mutual

/-- The first fault, depth first. A node without the error flag is passed over with all below it; a
flagged node under which no fault is found stands for itself. -/
def firstFault? : SyntaxTree → Option SyntaxTree
  | .node info children =>
    if info.kind == "ERROR" || info.missing then some (.node info children)
    else if !info.hasError then none
    else (firstFaultIn? children).getD (.node info children)

def firstFaultIn? : List SyntaxTree → Option SyntaxTree
  | [] => none
  | tree :: trees =>
    match firstFault? tree with
    | some fault => some fault
    | none => firstFaultIn? trees

end

mutual

/-- The number of nodes from the root to the deepest leaf. -/
def height : SyntaxTree → Nat
  | .node _ children => heightAll children + 1

def heightAll : List SyntaxTree → Nat
  | [] => 0
  | tree :: trees => max (height tree) (heightAll trees)

end

end SyntaxTree

end NotebookCell
