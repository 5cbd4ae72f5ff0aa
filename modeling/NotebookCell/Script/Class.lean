import NotebookCell.Script.Function

/-!
# Classes

Classes, their members, and decorators.
-/

namespace NotebookCell.Script

open Reader

/-! ### Decorators -/

def decoratorPath : Reader Unit := do
  name
  repeatWhile do
    if !(← atMark ".") then return false
    nodeAround "member_expression" (some "object") do
      takePlain
      held "property" (takeNamed "property_identifier")
    return true

/-- Reads a decorator: a name, a path of names, or a call of one. -/
def decorator (grammar : Grammar) : Reader Unit :=
  node "decorator" do
    mark "@"
    if ← atMark "(" then condition grammar
    else
      decoratorPath
      if ← atMark "(" then
        nodeAround "call_expression" (some "function") (held "arguments" (arguments grammar))

def decorators (grammar : Grammar) : Reader Unit :=
  repeatWhile do
    if !(← atMark "@") then return false
    held "decorator" (decorator grammar)
    return true

/-! ### Members -/

def atStaticBlock : Reader Bool := do
  return (← atWord "static") && (← peekSecond).isMark "\x7b"

def staticBlock (grammar : Grammar) : Reader Unit :=
  node "class_static_block" do
    word "static"
    held "body" (block grammar false)
    let _ ← takeStatementEnd false

inductive MemberForm where
  | method
  | field (given : Bool)

def memberParts (grammar : Grammar) : Reader MemberForm := do
  decorators grammar
  let method ← methodModifiers
  propertyName grammar
  if method || (← atMark "(") then
    methodRest grammar
    return .method
  else
    changeLatest (withField "property")
    let given ← mark? "="
    if given then held "value" (grammar .expression)
    return .field given

/-- Reads a method or a field; a field has a semicolon after it. -/
def methodOrField (grammar : Grammar) : Reader Unit := do
  let (form, parts) ← collecting [] (memberParts grammar)
  match form with
  | .method => held "member" (finish "method_definition" parts)
  | .field given =>
    held "member" (finish "field_definition" parts)
    semicolon given

def member (grammar : Grammar) : Reader Unit := do
  if ← mark? ";" then return
  if ← atStaticBlock then held "member" (staticBlock grammar)
  else methodOrField grammar

def classBody (grammar : Grammar) : Reader Unit :=
  node "class_body" do
    breakable do
      mark "\x7b"
      repeatWhile do
        if ← atMark "\x7d" then return false
        member grammar
        return true
      mark "\x7d"

/-- Reads a class on from its keyword. Only as an operand it may do without a name. -/
def classRest (grammar : Grammar) (place : Place) : Reader Unit := do
  word "class"
  if (← peek).isName then held "name" name
  else if place != .operand then reject
  if ← atWord "extends" then
    node "class_heritage" do
      takePlain
      unbreakable (grammar .expression)
  held "body" (classBody grammar)
  if place != .operand then
    let _ ← takeStatementEnd (place != .exported)

def classOf (grammar : Grammar) (place : Place) : Reader Unit :=
  node (if place == .operand then "class" else "class_declaration") do
    decorators grammar
    classRest grammar place

def atNamedClass (grammar : Grammar) : Reader Bool :=
  lookAhead do
    decorators grammar
    return (← atWord "class") && (← peekSecond).isName

end NotebookCell.Script
