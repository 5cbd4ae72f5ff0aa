import NotebookCell.Script.Grammar
import NotebookCell.Script.Literal

/-!
# Functions, methods and properties

Functions with a name of their own, functions without one, arrow functions, and the methods of objects
and classes.
-/

namespace NotebookCell.Script

open Reader

/-! ### Parameters -/

def parameter (grammar : Grammar) : Reader Unit := do
  spreadOrExpression grammar
  convertLatest toElement?

def parameters (grammar : Grammar) : Reader Unit :=
  node "formal_parameters" do
    unbreakable do
      mark "("
      items (parameter grammar) ")"
      mark ")"

/-! ### Functions -/

def functionKind (place : Place) (generator : Bool) : String :=
  match place, generator with
  | .operand, false => "function_expression"
  | .operand, true => "generator_function"
  | _, false => "function_declaration"
  | _, true => "generator_function_declaration"

def name (kind : String := "identifier") : Reader Unit := do
  if (← peek).isName then takeNamed kind else reject

/-- Reads the parts of a function, and says whether it is a generator. Only as an operand it may do
without a name. -/
def functionParts (grammar : Grammar) (place : Place) : Reader Bool := do
  let _ ← word? "async"
  word "function"
  let generator ← mark? "*"
  if (← peek).isName then held "name" name
  else if place != .operand then reject
  held "parameters" (parameters grammar)
  held "body" (block grammar (place != .exported))
  if place != .operand then
    let _ ← takeStatementEnd (place != .exported)
  return generator

def function (grammar : Grammar) (place : Place) : Reader Unit := do
  let (generator, parts) ← collecting [] (functionParts grammar place)
  finish (functionKind place generator) parts

def atNamedFunction : Reader Bool :=
  lookAhead do
    if ← word? "async" then
      if ← brokenOff then return false
    if !(← word? "function") then return false
    let _ ← mark? "*"
    return (← peek).isName

def atAsyncFunction : Reader Bool :=
  lookAhead do
    if !(← word? "async") then return false
    if ← brokenOff then return false
    atWord "function"

/-! ### Arrow functions -/

/-- Reads the body of an arrow function. A brace begins an object only if it does not begin a block. -/
def arrowBody (grammar : Grammar) : Reader Unit :=
  held "body" do
    if ← atMark "\x7b" then orElse (block grammar true) (grammar .expression)
    else grammar .expression

/-- Reads an arrow function on from the arrow; `before` stands before the arrow. -/
def arrow (grammar : Grammar) (before : List SyntaxTree) : Reader Unit := do
  finish "arrow_function" (← collect before.reverse do
    mark "=>"
    arrowBody grammar)

/-! ### Properties -/

def propertyName (grammar : Grammar) : Reader Unit := do
  match ← peek with
  | .word _ => takeNamed "property_identifier"
  | .privateName _ => takeNamed "private_property_identifier"
  | .number _ => takeNamed "number"
  | .quote _ => stringLiteral
  | _ =>
    node "computed_property_name" do
      unbreakable do
        mark "["
        grammar .expression
        mark "]"

/-- Takes the word `text` if it modifies the property after it, and says whether it did. -/
def modifier? (text : String) : Reader Bool := do
  let modifies ← lookAhead do
    if !(← word? text) then return false
    if ← brokenOff then return false
    let next ← peek
    return next.startsProperty || (next.isMark "*" && text != "get" && text != "set")
  if modifies then takePlain
  return modifies

/-- Takes what may come before the name of a method, and says whether the name must be a method's. -/
def methodModifiers : Reader Bool := do
  let _ ← modifier? "static"
  let async ← modifier? "async"
  if ← mark? "*" then return true
  if ← modifier? "get" then return true
  if ← modifier? "set" then return true
  return async

def methodRest (grammar : Grammar) : Reader Unit := do
  changeLatest (withField "name")
  held "parameters" (parameters grammar)
  held "body" (block grammar false)

end NotebookCell.Script
