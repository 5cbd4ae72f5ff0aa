import Mathlib.Data.List.Infix
import Mathlib.Tactic.MkIffOfInductiveProp
import NotebookCell.Proofs.Syntax.Leaves

/-!
# Faithful trees

What a parser that reads a text without error says of it. The leaves make up the text, comments are
comments, and the nodes that a wrapped cell is made of have the parts that the grammar gives them.
-/

namespace NotebookCell

/-! ### Comments -/

def lineMarks : List (List Char) := ["//".toList, "<!--".toList, "-->".toList]

def IsLineComment (chars : List Char) : Prop :=
  (∃ mark ∈ lineMarks, mark <+: chars) ∧ ∀ c ∈ chars, Script.isLineBreak c = false

/-- A comment in marks, which goes up to the first mark that closes it. -/
def IsBlockComment (chars : List Char) : Prop :=
  "/*".toList <+: chars ∧ "*/".toList <:+ chars.drop 2 ∧ ¬ "*/".toList <:+: (chars.drop 2).dropLast

def IsComment (chars : List Char) : Prop := IsLineComment chars ∨ IsBlockComment chars

instance (chars : List Char) : Decidable (IsLineComment chars) :=
  -- only the characters of the text are tried, not all characters
  have : Decidable (∀ c ∈ chars, Script.isLineBreak c = false) := List.decidableBAll _ chars
  inferInstanceAs (Decidable ((∃ mark ∈ lineMarks, _) ∧ _))

instance (chars : List Char) : Decidable (IsBlockComment chars) :=
  inferInstanceAs (Decidable (_ ∧ _ ∧ _))

instance (chars : List Char) : Decidable (IsComment chars) := inferInstanceAs (Decidable (_ ∨ _))

/-! ### Nodes -/

/-- The kinds of node that start and end with a character of their own. -/
def delimiters : List (String × Char × Char) :=
  [("parenthesized_expression", '(', ')'), ("statement_block", '{', '}'), ("formal_parameters", '(', ')')]

/-- The kinds of node around a wrapper function, with the tokens that they hold beside their parts. -/
def enclosingTokens : List (String × List (List Char)) :=
  [("program", []), ("expression_statement", [[';']]), ("parenthesized_expression", [['('], [')']])]

def isListed (c : Char) : Bool := Script.isWordPart c || c == ',' || Script.isSeparator c

namespace SyntaxTree

def heading (node : SyntaxTree) : List SyntaxTree :=
  node.children.takeWhile fun child => child.kind != "formal_parameters"

/-- The parameters of a function and the children behind them. -/
def signature (node : SyntaxTree) : List SyntaxTree :=
  node.children.dropWhile fun child => child.kind != "formal_parameters"

end SyntaxTree

namespace Document

variable (doc : Document)

def IsExtra (leaf : SyntaxTree) : Prop := leaf.children = [] ∧ SyntaxTree.isExtraKind leaf.kind

/-- A node goes from its first leaf to its last one. -/
def Spans (node : SyntaxTree) : Prop :=
  (∀ leaf ∈ node.leaves.head?, doc.first leaf = doc.first node) ∧
    ∀ leaf ∈ node.leaves.getLast?, doc.past leaf = doc.past node

/-- A function starts with words and ends with its body. Between its parameters and its body are
comments alone. -/
@[mk_iff] structure IsFunction (node : SyntaxTree) : Prop where
  words : node.heading ≠ []
  leaves : ∀ child ∈ node.heading, child.children = []
  open_ : ∀ child ∈ node.heading, SyntaxTree.isExtraKind child.kind ∨ '(' ∉ doc.spelling child
  body : node.signature.tail.getLast?.any (SyntaxTree.isField "body")
  comments : ∀ child ∈ node.signature.tail.dropLast, IsExtra child
  only : ∀ child ∈ node.children.dropLast, child.isField "body" = false

/-- Parameters that are listed by name end at the first parenthesis behind them. -/
def ClosesNames (node : SyntaxTree) : Prop :=
  let names := (doc.text.drop (doc.first node + 1)).takeWhile isListed
  doc.text[doc.first node + 1 + names.length]? = some ')' →
    doc.past node = doc.first node + 1 + names.length + 1

@[mk_iff] structure Parsed (node : SyntaxTree) : Prop where
  spans : doc.Spans node
  delimited : ∀ entry ∈ delimiters, node.kind = entry.1 →
    doc.text[doc.first node]? = some entry.2.1 ∧ doc.text[doc.past node - 1]? = some entry.2.2
  enclosing : ∀ entry ∈ enclosingTokens, node.kind = entry.1 → ∀ child ∈ node.children,
    child.isConstruct ∨ child.children = [] ∧
      (SyntaxTree.isExtraKind child.kind ∨ doc.spelling child ∈ entry.2)
  single : node.kind = "expression_statement" ∨ node.kind = "parenthesized_expression" →
    node.constructs.length = 1
  function : node.isConstruct → isFunctionKind node.kind → doc.IsFunction node
  parameters : node.kind = "formal_parameters" → doc.ClosesNames node

@[mk_iff] structure Faithful : Prop where
  program : doc.root.kind = "program"
  tiles : doc.Tiles 0 doc.text.length doc.root.leaves
  comment : ∀ leaf ∈ doc.root.leaves, SyntaxTree.isExtraKind leaf.kind → IsComment (doc.spelling leaf)
  parsed : ∀ node ∈ doc.root.nodes, doc.Parsed node

section Decide

variable (node : SyntaxTree)

instance : Decidable (IsExtra node) := inferInstanceAs (Decidable (_ ∧ _))

instance : Decidable (doc.Spans node) :=
  inferInstanceAs (Decidable ((∀ leaf ∈ node.leaves.head?, _) ∧ ∀ leaf ∈ node.leaves.getLast?, _))

instance : Decidable (doc.IsFunction node) := decidable_of_iff' _ (isFunction_iff doc node)

instance : Decidable (doc.ClosesNames node) := inferInstanceAs (Decidable (_ → _))

instance : Decidable (doc.Parsed node) := decidable_of_iff' _ (parsed_iff doc node)

instance : Decidable doc.Faithful := decidable_of_iff' _ (faithful_iff doc)

end Decide

end Document

end NotebookCell
