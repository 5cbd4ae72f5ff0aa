import NotebookCell.Syntax.Document

/-!
# The body of a wrapped cell

A wrapped cell is one expression statement that holds, in any number of parentheses, a function
expression. Its body is the block that the passes work on. A cell that closes the wrapper
early gives some other shape, and is refused.
-/

namespace NotebookCell

def SyntaxTree.firstConstruct (node : SyntaxTree) : Except TreeError SyntaxTree :=
  match node.constructs with
  | [] => .error (.noChild node.kind)
  | child :: _ => .ok child

def isFunctionKind (kind : String) : Bool := kind == "function_expression" || kind == "function"

/-- What is inside all parentheses around a node. At most `depth` of them are opened. -/
def unparenthesized : Nat → SyntaxTree → Except TreeError SyntaxTree
  | 0, node => .ok node
  | depth + 1, node =>
    if node.kind == "parenthesized_expression" then do
      let inner ← node.firstConstruct
      unparenthesized depth inner
    else .ok node

def ParseError.ofTree {α : Type} : Except TreeError α → Except ParseError α
  | .ok a => .ok a
  | .error e => .error (.tree e)

def Document.wrappedBody (doc : Document) (source : MappedText) : Except ParseError SyntaxTree :=
  match doc.root.constructs with
  | [statement] =>
    if statement.kind == "expression_statement" then do
      let expression ←
        ParseError.ofTree (statement.firstConstruct >>= unparenthesized statement.height)
      if isFunctionKind expression.kind then
        match expression.child? "body" with
        | none => .error (.fault { kind := .noBody })
        | some body =>
          if body.kind == "statement_block" then .ok body
          else .error (.fault { kind := .noBody })
      else
        let start ← ParseError.ofTree (doc.start expression)
        .error (.fault (.at (.notAFunction expression.kind) start source))
    else .error (.fault (.at .wrapperClosed 0 source))
  | _ :: second :: _ => do
    let start ← ParseError.ofTree (doc.start second)
    .error (.fault (.at .wrapperClosed start source))
  | [] => .error (.fault (.at .wrapperClosed 0 source))

end NotebookCell
