import NotebookCell.Script.Declaration

/-!
# Statements

The statements that are not about modules. A statement that begins with a word is told by the word,
others are expressions, blocks or empty.
-/

namespace NotebookCell.Script

open Reader

def expressionStatement (grammar : Grammar) : Reader Unit :=
  node "expression_statement" do
    grammar .expressions
    semicolon true

def emptyStatement : Reader Unit := node "empty_statement" (mark ";")

def atLabelInBraces : Reader Bool :=
  lookAhead do
    takePlain
    match ← peek with
    | .word _ => return (← peekSecond).isMark ":"
    | _ => return false

def atReservedInBraces : Reader Bool := do
  match ← peekSecond with
  | .word text => return reservedWords.contains (String.ofList text)
  | _ => return false

/-- Reads what begins with a brace: a block, or else an object. A name and a colon in braces are first
taken for an object. -/
def blockOrObject (grammar : Grammar) : Reader Unit := do
  let empty := (← peekSecond).isMark "\x7d"
  let asBlock := block grammar empty
  let asObject := expressionStatement grammar
  if ← atLabelInBraces then orElse asObject asBlock
  else if ← atReservedInBraces then asBlock
  else orElse asBlock asObject

/-! ### Branches -/

def ifStatement (grammar : Grammar) : Reader Unit :=
  node "if_statement" do
    word "if"
    held "condition" (condition grammar)
    held "consequence" (grammar .statement)
    if ← atWord "else" then
      held "alternative" do
        node "else_clause" do
          word "else"
          grammar .statement

def caseBody (grammar : Grammar) : Reader Unit :=
  repeatWhile do
    let next ← peek
    if next.isWord "case" || next.isWord "default" || next.isMark "\x7d" then return false
    held "body" (grammar .statement)
    return true

def switchCase (grammar : Grammar) : Reader Bool := do
  if ← atWord "case" then
    node "switch_case" do
      word "case"
      held "value" (grammar .expressions)
      mark ":"
      caseBody grammar
    return true
  else if ← atWord "default" then
    node "switch_default" do
      word "default"
      mark ":"
      caseBody grammar
    return true
  else return false

def switchStatement (grammar : Grammar) : Reader Unit :=
  node "switch_statement" do
    word "switch"
    held "value" (condition grammar)
    held "body" do
      node "switch_body" do
        mark "\x7b"
        repeatWhile (switchCase grammar)
        mark "\x7d"

/-! ### Loops -/

def forInitializer (grammar : Grammar) : Reader Unit := do
  if ← atMark ";" then held "initializer" emptyStatement
  else if ← atVariables then held "initializer" (breakable (variableDeclaration grammar))
  else
    held "initializer" (grammar .expressions)
    mark ";"

def forCondition (grammar : Grammar) : Reader Unit := do
  if ← atMark ";" then held "condition" emptyStatement
  else
    held "condition" (grammar .expressions)
    held "condition" (mark ";")

def forRest (grammar : Grammar) : Reader Unit := do
  unbreakable do
    mark "("
    forInitializer grammar
    forCondition grammar
    if !(← atMark ")") then held "increment" (grammar .expressions)
    mark ")"
  held "body" (grammar .statement)

/-- Reads the loop variable: a declared one, or a target of assignments. -/
def loopVariable (grammar : Grammar) : Reader Unit := do
  if ← atVariables then
    let plain := !(← atWord "var")
    held "kind" takePlain
    held "left" (bound grammar)
    if plain then
      if ← atStatementEnd true then
        let _ ← takeStatementEnd true
  else
    held "left" do
      chainStart grammar
      repeatWhile (link grammar true)
      convertLatest toTarget?

def forInRest (grammar : Grammar) : Reader Unit := do
  unbreakable do
    mark "("
    loopVariable grammar
    if (← atWord "in") || (← atWord "of") then held "operator" takePlain else reject
    held "right" (grammar .expressions)
    mark ")"
  held "body" (grammar .statement)

/-- What comes after `for` is the head of a loop over the members of something. -/
def atForIn (grammar : Grammar) : Reader Bool :=
  lookAhead do
    let read ← attempt <| unbreakable do
      mark "("
      loopVariable grammar
    if read.isNone then return false
    return (← atWord "in") || (← atWord "of")

def forStatement (grammar : Grammar) : Reader Unit := do
  let keywords ← collect [] do
    word "for"
    let _ ← word? "await"
  let read (kind : String) (rest : Reader Unit) : Reader Unit := do
    finish kind (← collect keywords.reverse rest)
  if keywords.length == 2 then read "for_in_statement" (forInRest grammar)
  else if ← atForIn grammar then
    orElse (read "for_in_statement" (forInRest grammar)) (read "for_statement" (forRest grammar))
  else read "for_statement" (forRest grammar)

def whileStatement (grammar : Grammar) : Reader Unit :=
  node "while_statement" do
    word "while"
    held "condition" (condition grammar)
    held "body" (grammar .statement)

/-- Reads a `do` statement. Its semicolon may be left out anywhere. -/
def doStatement (grammar : Grammar) : Reader Unit :=
  node "do_statement" do
    word "do"
    held "body" (grammar .statement)
    word "while"
    held "condition" (condition grammar)
    if !(← takeStatementEnd false) then
      let _ ← mark? ";"

/-! ### Other statements -/

def catchClause (grammar : Grammar) : Reader Unit :=
  node "catch_clause" do
    word "catch"
    if ← mark? "(" then
      held "parameter" (bound grammar)
      mark ")"
    held "body" (block grammar false)

def tryStatement (grammar : Grammar) : Reader Unit :=
  node "try_statement" do
    word "try"
    held "body" (block grammar false)
    if ← atWord "catch" then held "handler" (catchClause grammar)
    if ← atWord "finally" then
      held "finalizer" do
        node "finally_clause" do
          word "finally"
          held "body" (block grammar false)

def withStatement (grammar : Grammar) : Reader Unit :=
  node "with_statement" do
    word "with"
    held "object" (condition grammar)
    held "body" (grammar .statement)

def jump (keyword kind : String) : Reader Unit :=
  node kind do
    word keyword
    if !(← atStatementEnd false) then
      if (← peek).isName then held "label" (name "statement_identifier")
    semicolon false

def returnStatement (grammar : Grammar) : Reader Unit :=
  node "return_statement" do
    word "return"
    if (← atStatementEnd false) || (← atMark ";") then semicolon false
    else
      grammar .expressions
      semicolon true

def throwStatement (grammar : Grammar) : Reader Unit :=
  node "throw_statement" do
    word "throw"
    grammar .expressions
    semicolon true

def labeledStatement (grammar : Grammar) : Reader Unit :=
  node "labeled_statement" do
    held "label" (name "statement_identifier")
    mark ":"
    held "body" (grammar .statement)

def wordStatement (grammar : Grammar) (text : String) : Reader Unit := do
  match text with
  | "if" => ifStatement grammar
  | "switch" => switchStatement grammar
  | "for" => forStatement grammar
  | "while" => whileStatement grammar
  | "do" => doStatement grammar
  | "try" => tryStatement grammar
  | "with" => withStatement grammar
  | "break" => jump text "break_statement"
  | "continue" => jump text "continue_statement"
  | "return" => returnStatement grammar
  | "throw" => throwStatement grammar
  | "debugger" =>
    node "debugger_statement" do
      takePlain
      semicolon false
  | _ =>
    if (← peek).isName && (← peekSecond).isMark ":" then labeledStatement grammar
    else if ← declaration? grammar .statement then return
    else expressionStatement grammar

end NotebookCell.Script
