import NotebookCell.Script.Class
import NotebookCell.Script.Operator

/-!
# Expressions

From the inside out: literals, names and bracketed expressions; chains of members, subscripts and
calls; assignments and operators.
-/

namespace NotebookCell.Script

open Reader

/-! ### Lists in brackets -/

def array (grammar : Grammar) : Reader Unit :=
  node "array" do
    unbreakable do
      mark "["
      itemsWithHoles (spreadOrExpression grammar) "]"
      mark "]"

inductive PropertyForm where
  | pair
  | method
  | shorthand
  | shorthandWithDefault

def PropertyForm.kind : PropertyForm → String
  | .pair => "pair"
  | .method => "method_definition"
  | .shorthand => "shorthand_property_identifier"
  | .shorthandWithDefault => "object_assignment_pattern"

/-- Reads the parts of a property. A name with a default is no property of an object, but the object
may turn out to be a pattern. -/
def propertyParts (grammar : Grammar) : Reader PropertyForm := do
  let method ← methodModifiers
  let isName := (← peek).isName
  propertyName grammar
  if method || (← atMark "(") then
    methodRest grammar
    return .method
  else if ← atMark ":" then
    changeLatest (withField "key")
    takePlain
    held "value" (grammar .expression)
    return .pair
  else if !isName then reject
  else if ← atMark "=" then
    changeLatest fun key =>
      withField "left" (withKind "shorthand_property_identifier_pattern" key)
    takePlain
    held "right" (grammar .expression)
    return .shorthandWithDefault
  else return .shorthand

def property (grammar : Grammar) : Reader Unit := do
  if ← atMark "..." then spread grammar
  else
    let (form, parts) ← collecting [] (propertyParts grammar)
    match form, parts with
    | .shorthand, [key] => push (withKind form.kind key)
    | _, _ => finish form.kind parts

def object (grammar : Grammar) : Reader Unit :=
  node "object" do
    unbreakable do
      mark "\x7b"
      itemsWithHoles (property grammar) "\x7d"
      mark "\x7d"

/-- The nodes between brackets are a sequence of expressions: none of them is spread, and the last is
no comma. -/
def isSequence (parts : List SyntaxTree) : Bool :=
  !parts.any (fun part => part.kind == "spread_element") &&
    (parts.getLast?.map fun last => last.info.named).getD false

/-- Reads parentheses: around the parameters of an arrow function, or around expressions. -/
def parenthesized (grammar : Grammar) : Reader Unit := do
  let opening ← collect [] (mark "(")
  let inside ← collect [] (unbreakable (items (spreadOrExpression grammar) ")"))
  let closing ← collect [] (mark ")")
  if ← atMark "=>" then
    let params ← convertAll toElement? inside
    finish "formal_parameters" (opening ++ params ++ closing)
    let params ← pop
    arrow grammar [withField "parameters" params]
  else if !isSequence inside then reject
  else
    let body := match inside with
      | [single] => single
      | several => nodeOf "sequence_expression" several ((several.getLast?.map (·.info.stop)).getD 0)
    finish "parenthesized_expression" (opening ++ [body] ++ closing)

/-! ### Operands that begin with a word -/

/-- Reads `import` as an operand: the module's own data, or a module named by an expression, the call
of which is read with the chain. -/
def importOperand : Reader Unit := do
  if (← peekSecond).isMark "." then
    node "meta_property" do
      word "import"
      mark "."
      word "meta"
  else
    node "import" (word "import")

/-- Reads what begins with the word `async`: an asynchronous function, an asynchronous arrow function,
or a name. -/
def asyncOperand (grammar : Grammar) : Reader Unit := do
  if ← atAsyncFunction then function grammar .operand
  else
    takeNamed "identifier"
    let async := fun (tree : SyntaxTree) =>
      SyntaxTree.node { tree.info with kind := "async", named := false } []
    if ← atMark "=>" then arrow grammar [withField "parameter" (← pop)]
    else if ← brokenOff then return
    else if (← peek).isName && (← peekSecond).isMark "=>" then
      let before ← pop
      name
      arrow grammar [async before, withField "parameter" (← pop)]
    else if ← atMark "(" then
      let before ← pop
      arguments grammar
      let inside ← pop
      if ← atMark "=>" then
        let params ← convertAll toElement? inside.children
        arrow grammar
          [async before, .node { inside.info with
            kind := "formal_parameters", field := some "parameters" } params]
      else
        finish "call_expression" [withField "function" before, withField "arguments" inside]

def nameOperand (grammar : Grammar) : Reader Unit := do
  name
  if ← atMark "=>" then arrow grammar [withField "parameter" (← pop)]

def literalWords : List String := ["this", "super", "true", "false", "null", "undefined"]

/-! ### Chains -/

def memberName : Reader Unit := do
  match ← peek with
  | .word _ => held "property" (takeNamed "property_identifier")
  | .privateName _ => held "property" (takeNamed "private_property_identifier")
  | _ => reject

def subscript (grammar : Grammar) : Reader Unit :=
  unbreakable do
    mark "["
    held "index" (grammar .expressions)
    mark "]"

def optionalMark : Reader Unit := held "optional_chain" (takeNamed "optional_chain")

/-- Reads one link of a chain: a member, a subscript or, if `calls` is set, a call. -/
def link (grammar : Grammar) (calls : Bool) : Reader Bool := do
  match ← peek with
  | .mark "." =>
    nodeAround "member_expression" (some "object") do
      takePlain
      memberName
    return true
  | .mark "[" =>
    nodeAround "subscript_expression" (some "object") (subscript grammar)
    return true
  | .mark "(" =>
    if !calls then return false
    nodeAround "call_expression" (some "function") (held "arguments" (arguments grammar))
    return true
  | .mark "\x60" =>
    nodeAround "call_expression" (some "function") do
      held "arguments" (templateString (grammar .expressions))
    return true
  | .mark "?." =>
    let second ← peekSecond
    if second.isMark "[" then
      nodeAround "subscript_expression" (some "object") do
        optionalMark
        subscript grammar
    else if second.isMark "(" then
      if !calls then return false
      nodeAround "call_expression" (some "function") do
        optionalMark
        held "arguments" (arguments grammar)
    else
      nodeAround "member_expression" (some "object") do
        optionalMark
        memberName
    return true
  | _ => return false

def primary (grammar : Grammar) : Reader Unit := do
  match ← peek with
  | .number _ => takeNamed "number"
  | .quote _ => stringLiteral
  | .privateName _ =>
    if (← peekSecond).isWord "in" then takeNamed "private_property_identifier" else reject
  | .mark "(" => parenthesized grammar
  | .mark "[" => array grammar
  | .mark "\x7b" => object grammar
  | .mark "\x60" => templateString (grammar .expressions)
  | .mark "/" | .mark "/=" => regularExpression
  | .mark "@" => classOf grammar .operand
  | .word text =>
    let text := String.ofList text
    if literalWords.contains text then takeNamed text
    else
      match text with
      | "function" => function grammar .operand
      | "class" => classOf grammar .operand
      | "import" => importOperand
      | "async" => asyncOperand grammar
      | _ => nameOperand grammar
  | _ => reject

/-- Takes the words `new` at a place, one after another, and gives how many. -/
def newWords : Nat → Reader Nat
  | 0 => return 0
  | bound + 1 => do
    if (← atWord "new") && !(← peekSecond).isMark "." then
      takePlain
      return (← newWords bound) + 1
    else return 0

def newRest (grammar : Grammar) : Nat → Reader Unit
  | 0 => pure ()
  | count + 1 => do
    repeatWhile (link grammar false)
    let constructor ← pop
    let keyword ← pop
    let parts ← collect [withField "constructor" constructor, keyword] do
      if ← atMark "(" then held "arguments" (arguments grammar)
    finish "new_expression" parts
    newRest grammar count

def chainStart (grammar : Grammar) : Reader Unit := do
  let count ← newWords (← get).size
  if ← atWord "new" then
    node "meta_property" do
      word "new"
      mark "."
      word "target"
  else primary grammar
  newRest grammar count

/-! ### Operators -/

def augmentedMarks : List String :=
  ["+=", "-=", "*=", "/=", "%=", "^=", "&=", "|=", ">>=", ">>>=", "<<=", "**=", "&&=", "||=", "??="]

def augmentable : List String :=
  ["identifier", "member_expression", "subscript_expression", "parenthesized_expression"]

def toTarget? (tree : SyntaxTree) : Option SyntaxTree :=
  if tree.kind == "parenthesized_expression" then some tree else toPattern? tree

def assignmentOrPostfix (grammar : Grammar) : Reader Unit := do
  match ← peek with
  | .mark "=" =>
    convertLatest toTarget?
    nodeAround "assignment_expression" (some "left") do
      takePlain
      held "right" (grammar .expression)
  | .mark text =>
    if augmentedMarks.contains text then
      let target ← pop
      if !augmentable.contains target.kind then reject
      push target
      nodeAround "augmented_assignment_expression" (some "left") do
        held "operator" takePlain
        held "right" (grammar .expression)
    else if (text == "++" || text == "--") && !(← brokenOff) then
      nodeAround "update_expression" (some "argument") (held "operator" takePlain)
  | _ => pure ()

def chain (grammar : Grammar) : Reader Unit := do
  chainStart grammar
  repeatWhile (link grammar true)
  assignmentOrPostfix grammar

def operandMarks : List String :=
  ["(", "[", "\x7b", "\x60", "/", "/=", "@", "!", "~", "+", "-", "++", "--"]

def Token.startsOperand : Token → Bool
  | .number _ | .quote _ | .privateName _ => true
  | .mark text => operandMarks.contains text
  | .word text =>
    let text := String.ofList text
    !reservedWords.contains text || literalWords.contains text ||
      ["class", "delete", "function", "import", "new", "typeof", "void"].contains text
  | _ => false

def prefixed (grammar : Grammar) (kind : String) : Reader Unit :=
  node kind do
    held "operator" takePlain
    held "argument" (grammar .operand)

/-- The word `await` at a place awaits an operand. Before a parenthesis it is the name of a function. -/
def awaitsOperand : Reader Bool :=
  lookAhead do
    takePlain
    if ← brokenOff then return false
    let next ← peek true
    return next.startsOperand && !next.isMark "("

def awaited (grammar : Grammar) : Reader Unit :=
  node "await_expression" do
    takePlain
    grammar .operand

def yielded (grammar : Grammar) : Reader Unit :=
  node "yield_expression" do
    takePlain
    if ← brokenOff then return
    if ← mark? "*" then grammar .expression
    else if (← peek true).startsOperand then grammar .expression

def operand (grammar : Grammar) : Reader Unit := do
  settle
  match ← peek with
  | .mark "!" | .mark "~" | .mark "+" | .mark "-" => prefixed grammar "unary_expression"
  | .mark "++" | .mark "--" => prefixed grammar "update_expression"
  | .word text =>
    match String.ofList text with
    | "typeof" | "void" | "delete" => prefixed grammar "unary_expression"
    | "await" => if ← awaitsOperand then awaited grammar else chain grammar
    | "yield" => yielded grammar
    | _ => chain grammar
  | _ => chain grammar

def operatorStep (grammar : Grammar) : Reader Bool := do
  if !(← peek).isBinary then return false
  takePlain
  grammar .operand
  return true

def binary (grammar : Grammar) : Reader Unit := do
  let row ← collect [] do
    grammar .operand
    repeatWhile (operatorStep grammar)
  match row with
  | [] => reject
  | first :: row => push (associate [] first row)

def expression (grammar : Grammar) : Reader Unit := do
  binary grammar
  if ← atMark "?" then
    nodeAround "ternary_expression" (some "condition") do
      takePlain
      held "consequence" (unbreakable (grammar .expression))
      mark ":"
      held "alternative" (grammar .expression)

def expressions (grammar : Grammar) : Reader Unit := do
  grammar .expression
  if ← atMark "," then
    nodeAround "sequence_expression" none do
      repeatWhile do
        if !(← mark? ",") then return false
        grammar .expression
        return true

end NotebookCell.Script
