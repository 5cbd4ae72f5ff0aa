import NotebookCell.Script.Reader

/-!
# Expressions read as patterns

A target of an assignment, a parameter or a loop variable is first read as an expression, because only
what follows it shows what it is. `toPattern?` turns such an expression into the pattern with the same
text; `toElement?` also admits what only an element of a pattern may be: a default or a rest.
-/

namespace NotebookCell.Script

open Reader

def isPlainTarget (kind : String) : Bool :=
  ["identifier", "undefined", "member_expression", "subscript_expression", "object_pattern",
    "array_pattern"].contains kind

def withoutField : SyntaxTree → SyntaxTree
  | .node info children => .node { info with field := none } children

mutual

def toPattern? : SyntaxTree → Option SyntaxTree
  | .node info children =>
    if isPlainTarget info.kind then some (.node info children)
    else if info.kind == "array" then
      (toElements? children).map (.node { info with kind := "array_pattern" })
    else if info.kind == "object" then
      (toProperties? children).map (.node { info with kind := "object_pattern" })
    else none

def toElement? : SyntaxTree → Option SyntaxTree
  | .node info children =>
    if !info.named then some (.node info children)
    else if info.kind == "assignment_expression" then
      match children with
      | left :: _ =>
        if left.kind == "parenthesized_expression" then none
        else some (.node { info with kind := "assignment_pattern" } children)
      | [] => none
    else if info.kind == "spread_element" then
      toRest? info children
    else if isPlainTarget info.kind then some (.node info children)
    else if info.kind == "array" then
      (toElements? children).map (.node { info with kind := "array_pattern" })
    else if info.kind == "object" then
      (toProperties? children).map (.node { info with kind := "object_pattern" })
    else none

/-- The rest element with the text of a spread. A default belongs to the rest element as a whole. -/
def toRest? (info : NodeInfo) : List SyntaxTree → Option SyntaxTree
  | [dots, .node value [left, sign, right]] =>
    if value.kind == "assignment_expression" then
      let rest := SyntaxTree.node
        { kind := "rest_pattern", start := info.start, stop := left.info.stop, field := some "left" }
        [dots, withoutField left]
      some (.node { info with kind := "assignment_pattern" } [rest, sign, right])
    else do
      let target ← toPattern? (.node value [left, sign, right])
      return .node { info with kind := "rest_pattern" } [dots, target]
  | [dots, target] => do
    return .node { info with kind := "rest_pattern" } [dots, ← toPattern? target]
  | _ => none

def toElements? : List SyntaxTree → Option (List SyntaxTree)
  | [] => some []
  | tree :: trees => do
    let element ← toElement? tree
    let elements ← toElements? trees
    return element :: elements

def toProperty? : SyntaxTree → Option SyntaxTree
  | .node info children =>
    if !info.named || info.kind == "object_assignment_pattern" then some (.node info children)
    else if info.kind == "shorthand_property_identifier" then
      some (.node { info with kind := "shorthand_property_identifier_pattern" } children)
    else if info.kind == "pair" then
      (toPairParts? children).map (.node { info with kind := "pair_pattern" })
    else if info.kind == "spread_element" then toRest? info children
    else none

def toProperties? : List SyntaxTree → Option (List SyntaxTree)
  | [] => some []
  | tree :: trees => do
    let property ← toProperty? tree
    let properties ← toProperties? trees
    return property :: properties

/-- The parts of a pair in a pattern: the key stays as it is. -/
def toPairParts? : List SyntaxTree → Option (List SyntaxTree)
  | [] => some []
  | tree :: trees => do
    let part ← if tree.isField "key" then some tree else toElement? tree
    let parts ← toPairParts? trees
    return part :: parts

end

/-- Turns the latest node by `convert`; fails at its start if it cannot be turned. -/
def convertLatest (convert : SyntaxTree → Option SyntaxTree) : Reader Unit := do
  let tree ← pop
  match convert tree with
  | some pattern => push pattern
  | none => throw tree.info.start

def patternFrom (expression : Reader Unit) : Reader Unit := do
  expression
  convertLatest toPattern?

/-- Turns trees by `convert`; fails at the first that cannot be turned. -/
def convertAll (convert : SyntaxTree → Option SyntaxTree) :
    List SyntaxTree → Reader (List SyntaxTree)
  | [] => pure []
  | tree :: trees => do
    match convert tree with
    | none => throw tree.info.start
    | some pattern => return pattern :: (← convertAll convert trees)

mutual

def strayDefault? : SyntaxTree → Option Nat
  | .node info children =>
    let here := if info.kind == "object" then
        (children.find? fun child => child.kind == "object_assignment_pattern").map fun child =>
          child.info.start
      else none
    here <|> strayDefaultIn? children

def strayDefaultIn? : List SyntaxTree → Option Nat
  | [] => none
  | tree :: trees => strayDefault? tree <|> strayDefaultIn? trees

end

end NotebookCell.Script
