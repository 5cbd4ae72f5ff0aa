import NotebookCell.Script.Expression

/-!
# Declarations

Variables, functions and classes that a statement declares.
-/

namespace NotebookCell.Script

open Reader

def atBracketPattern : Reader Bool := do
  return (← atMark "[") || (← atMark "\x7b")

def bracketPattern (grammar : Grammar) : Reader Unit := do
  if ← atMark "[" then array grammar else object grammar
  convertLatest toPattern?

def bound (grammar : Grammar) : Reader Unit := do
  if ← atBracketPattern then bracketPattern grammar else name

def declarator (grammar : Grammar) : Reader Bool := do
  let (given, parts) ← collecting [] do
    held "name" (bound grammar)
    let given ← mark? "="
    if given then held "value" (grammar .expression)
    pure given
  finish "variable_declarator" parts
  return given

/-- Reads variables with commas between them, and says whether the last one has a value. -/
def declarators (grammar : Grammar) : Nat → Reader Bool
  | 0 => return false
  | bound + 1 => do
    let given ← declarator grammar
    if ← mark? "," then declarators grammar bound else return given

def variableDeclaration (grammar : Grammar) : Reader Unit := do
  let lexical := !(← atWord "var")
  node (if lexical then "lexical_declaration" else "variable_declaration") do
    if lexical then held "kind" takePlain else takePlain
    let given ← declarators grammar (← get).size
    semicolon given

/-- The word `let` is next and begins a declaration: a name or a pattern follows. -/
def atLet : Reader Bool :=
  lookAhead do
    if !(← word? "let") then return false
    if ← brokenOff then return false
    return (← peek).isName || (← atBracketPattern)

def atVariables : Reader Bool := do
  return (← atWord "var") || (← atWord "const") || (← atLet)

/-- Reads a declaration if one is next, and says whether one was. A function or a class without a name
is none. -/
def declaration? (grammar : Grammar) (place : Place) : Reader Bool := do
  if ← atVariables then variableDeclaration grammar
  else if ← atNamedFunction then function grammar place
  else if ← atNamedClass grammar then classOf grammar place
  else return false
  return true

end NotebookCell.Script
