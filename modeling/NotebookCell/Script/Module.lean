import NotebookCell.Script.Statement

/-!
# Statements about modules

Imports and exports, and with them all statements.
-/

namespace NotebookCell.Script

open Reader

/-! ### Names -/

/-- Reads a name by which a module knows something: a word or a string. -/
def moduleName : Reader Unit := do
  match ← peek with
  | .quote _ => stringLiteral
  | .word text => if text == "default".toList then takePlain else takeNamed "identifier"
  | _ => reject

def fromClause : Reader Unit := do
  word "from"
  held "source" stringLiteral

/-! ### Imports -/

/-- Reads one imported name. A name that no variable can have needs another one after `as`. -/
def importSpecifier : Reader Unit :=
  node "import_specifier" do
    let first ← peek
    held "name" moduleName
    if first.isWord "default" then
      changeLatest fun tree => .node { tree.info with kind := "identifier", named := true } []
    if ← word? "as" then held "alias" name
    else if !first.isName then reject

def namedImports : Reader Unit :=
  node "named_imports" do
    mark "\x7b"
    items importSpecifier "\x7d"
    mark "\x7d"

def namespaceImport : Reader Unit :=
  node "namespace_import" do
    mark "*"
    word "as"
    name

def importedMembers : Reader Unit := do
  if ← atMark "*" then namespaceImport else namedImports

def importClause : Reader Unit :=
  node "import_clause" do
    if (← peek).isName then
      name
      if ← mark? "," then importedMembers
    else importedMembers

def importStatement (grammar : Grammar) : Reader Unit :=
  node "import_statement" do
    word "import"
    match ← peek with
    | .quote _ => held "source" stringLiteral
    | _ =>
      importClause
      fromClause
    if !(← atStatementEnd false) then
      if ← atWord "with" then
        node "import_attribute" do
          takePlain
          object grammar
    semicolon false

/-! ### Exports -/

def exportSpecifier : Reader Unit :=
  node "export_specifier" do
    held "name" moduleName
    if ← word? "as" then held "alias" moduleName

def defaultExport (grammar : Grammar) : Reader Unit := do
  word "default"
  let before := (← get).built
  if ← declaration? grammar .exported then changeLatest (withField "declaration")
  else
    modify fun s => { s with built := before }
    held "value" (grammar .expression)
    semicolon true

def starExport : Reader Unit := do
  if (← peekSecond).isWord "as" then
    node "namespace_export" do
      mark "*"
      word "as"
      moduleName
  else mark "*"
  fromClause
  semicolon false

def clauseExport : Reader Unit := do
  node "export_clause" do
    mark "\x7b"
    items exportSpecifier "\x7d"
    mark "\x7d"
  if !(← atStatementEnd false) then
    if ← atWord "from" then fromClause
  semicolon false

def exportStatement (grammar : Grammar) : Reader Unit :=
  node "export_statement" do
    decorators grammar
    word "export"
    if ← atMark "*" then starExport
    else if ← atMark "\x7b" then clauseExport
    else if ← atWord "default" then defaultExport grammar
    else if ← declaration? grammar .exported then changeLatest (withField "declaration")
    else reject

/-! ### All statements -/

def atDecoratedExport (grammar : Grammar) : Reader Bool :=
  lookAhead do
    decorators grammar
    atWord "export"

/-- Reads what begins with decorators: an export, or a class. -/
def decorated (grammar : Grammar) : Reader Unit := do
  if ← atDecoratedExport grammar then exportStatement grammar
  else if ← declaration? grammar .statement then return
  else expressionStatement grammar

def atImport : Reader Bool := do
  if !(← atWord "import") then return false
  let second ← peekSecond
  return !second.isMark "(" && !second.isMark "."

def Token.startsExport : Token → Bool
  | .mark text => text == "*" || text == "\x7b" || text == "@"
  | .word text =>
    ["default", "var", "let", "const", "function", "async", "class"].contains (String.ofList text)
  | _ => false

def atExport : Reader Bool := do
  return (← atWord "export") && (← peekSecond).startsExport

def statement (grammar : Grammar) : Reader Unit :=
  breakable do
    settle
    match ← peek with
    | .mark ";" => emptyStatement
    | .mark "\x7b" => blockOrObject grammar
    | .mark "@" => decorated grammar
    | .word text =>
      if ← atExport then exportStatement grammar
      else if ← atImport then importStatement grammar
      else wordStatement grammar (String.ofList text)
    | _ => expressionStatement grammar

end NotebookCell.Script
