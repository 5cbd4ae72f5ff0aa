import NotebookCell.Script.Grammar

/-!
# Binary operators

A row of operands with operators between them becomes a tree: an operator of a higher rank binds its
operands first, and of two operators of one rank the left one does, except for powers.
-/

namespace NotebookCell.Script

def rankOf? (text : String) : Option Nat :=
  match text with
  | "??" => some 1
  | "||" => some 2
  | "&&" => some 3
  | "|" => some 4
  | "^" => some 5
  | "&" => some 6
  | "==" | "!=" | "===" | "!==" => some 7
  | "<" | "<=" | ">" | ">=" | "in" | "instanceof" => some 8
  | "<<" | ">>" | ">>>" => some 9
  | "+" | "-" => some 10
  | "*" | "/" | "%" => some 11
  | "**" => some 12
  | _ => none

def Token.isBinary : Token → Bool
  | .mark text => (rankOf? text).isSome
  | .word text => text == "in".toList || text == "instanceof".toList
  | _ => false

/-- The operator `left` binds before the operator `right` that follows it. -/
def bindsFirst (left right : SyntaxTree) : Bool :=
  let leftRank := (rankOf? left.kind).getD 0
  let rightRank := (rankOf? right.kind).getD 0
  leftRank > rightRank || (leftRank == rightRank && left.kind != "**")

def binaryOf (left operator right : SyntaxTree) : SyntaxTree :=
  .node { kind := "binary_expression", start := left.info.start, stop := right.info.stop }
    [Reader.withField "left" left, Reader.withField "operator" operator,
      Reader.withField "right" right]

/-- Binds the operators of a stack that come before `next`. The stack holds left operands with their
operators, latest first. -/
def bindBefore (next : SyntaxTree) (right : SyntaxTree) :
    List (SyntaxTree × SyntaxTree) → SyntaxTree × List (SyntaxTree × SyntaxTree)
  | [] => (right, [])
  | (left, operator) :: stack =>
    if bindsFirst operator next then bindBefore next (binaryOf left operator right) stack
    else (right, (left, operator) :: stack)

def bindAll (right : SyntaxTree) : List (SyntaxTree × SyntaxTree) → SyntaxTree
  | [] => right
  | (left, operator) :: stack => bindAll (binaryOf left operator right) stack

/-- The tree of an operand and the row of operators and operands after it. -/
def associate (stack : List (SyntaxTree × SyntaxTree)) (operand : SyntaxTree) :
    List SyntaxTree → SyntaxTree
  | operator :: next :: row =>
    let (left, stack) := bindBefore operator operand stack
    associate ((left, operator) :: stack) next row
  | _ => bindAll operand stack

end NotebookCell.Script
