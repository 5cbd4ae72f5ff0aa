import NotebookCell.Syntax.Fault
import NotebookCell.Syntax.Offsets
import NotebookCell.Syntax.Tree

/-!
# Parsed documents

A document is a text with a syntax tree for it. Ranges of nodes are read in characters. Nothing is
taken for granted about the tree, so reading a range that leaves the text is an error, and so is
asking for a child that is not there.
-/

namespace NotebookCell

inductive TreeError where
  | outsideText
  | noChild (kind : String)
  /-- A node holds nothing under a field that its kind needs. -/
  | noField (kind field : String)
deriving DecidableEq

def TreeError.message : TreeError → String
  | .outsideText => "list index out of range"
  | .noChild _ => "list index out of range"
  | .noField kind field => s!"{kind} without {field}"

/-- A text, the character offsets of its bytes, and a tree for it. -/
structure Document where
  text : List Char
  offsets : List Nat
  root : SyntaxTree

namespace Document

def ofTree (text : List Char) (root : SyntaxTree) : Document :=
  { text, offsets := charOffsets text, root }

def charAt (doc : Document) (byte : Nat) : Except TreeError Nat :=
  match doc.offsets[byte]? with
  | some offset => .ok offset
  | none => .error .outsideText

def start (doc : Document) (node : SyntaxTree) : Except TreeError Nat := doc.charAt node.info.start

def stop (doc : Document) (node : SyntaxTree) : Except TreeError Nat := doc.charAt node.info.stop

def nodeText (doc : Document) (node : SyntaxTree) : Except TreeError (List Char) := do
  let start ← doc.start node
  let stop ← doc.stop node
  return (doc.text.take stop).drop start

/-- The fault that a node stands for: a supplied token is missing, and anything else is unexpected,
as far as its first line. -/
def faultOf (doc : Document) (source : MappedText) (node : SyntaxTree) :
    Except TreeError SyntaxFault := do
  let offset ← doc.start node
  if node.info.missing then
    return .at (.missing node.kind) offset source
  let snippet := (← doc.nodeText node).takeWhile (· != '\n')
  return .at (if snippet.isEmpty then .unexpectedEnd else .unexpected snippet) offset source

end Document

inductive ParseError where
  | fault (fault : SyntaxFault)
  | tree (error : TreeError)
deriving DecidableEq

/-- Reads a text with a tree for it; a tree that is flagged as faulty is refused at its first fault. -/
def Document.read (source : MappedText) (root : SyntaxTree) : Except ParseError Document :=
  let doc := Document.ofTree source.chars root
  if root.info.hasError then
    match doc.faultOf source ((root.firstFault?).getD root) with
    | .ok fault => .error (.fault fault)
    | .error error => .error (.tree error)
  else .ok doc

end NotebookCell
