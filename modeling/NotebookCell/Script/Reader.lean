import NotebookCell.Script.Token
import NotebookCell.Syntax.Tree

/-!
# Readers of scripts

A reader takes tokens from a place in a text and builds the nodes of a syntax tree. The nodes under
construction form a list, latest first; a finished node takes the nodes built since it was begun as
its children. A reader that fails names the offset at which it failed.

Comments and separators leave no nodes.
-/

namespace NotebookCell.Script

/-- A reader's state: the place after the last token taken, the nodes of the construct being read,
whether a line break can end the current statement here, and a bound on the number of tokens. -/
structure ReaderState where
  cursor : Cursor
  size : Nat
  built : List SyntaxTree := []
  breakable : Bool := true

abbrev Reader (α : Type) := StateT ReaderState (Except Nat) α

namespace Reader

/-! ### Looking ahead -/

/-- The place of the next token. Where an operand is expected, `markup` comments are skipped too. -/
def nextCursor (markup : Bool := false) : Reader Cursor := return (← get).cursor.skipGaps markup

def peek (markup : Bool := false) : Reader Token := return tokenAt (← nextCursor markup).rest

def peekSecond : Reader Token := do
  let cursor ← nextCursor
  return tokenAt ((cursor.advance (tokenAt cursor.rest).length).skipGaps false).rest

def atMark (text : String) : Reader Bool := return (← peek).isMark text

def atWord (text : String) : Reader Bool := return (← peek).isWord text

/-- Goes to the next token, past comments in the style of markup. -/
def settle : Reader Unit := do
  let cursor ← nextCursor true
  modify fun s => { s with cursor }

def reject {α : Type} : Reader α := do throw (← nextCursor).offset

/-- Repeats a step while it succeeds in doing something; `bound` bounds the repetitions. -/
def repeatStep (step : Reader Bool) : Nat → Reader Unit
  | 0 => pure ()
  | bound + 1 => do
    if ← step then repeatStep step bound

def repeatWhile (step : Reader Bool) : Reader Unit := do repeatStep step (← get).size

/-- Runs a reader, and takes back what it did if it fails. -/
def attempt {α : Type} (reader : Reader α) : Reader (Option α) := fun state =>
  match reader state with
  | .ok (a, state) => .ok (some a, state)
  | .error _ => .ok (none, state)

/-- Runs a reader for what it answers, and takes back what it did. -/
def lookAhead {α : Type} (reader : Reader α) : Reader α := do
  let state ← get
  let answer ← reader
  set state
  return answer

/-- Runs the first reader, or if it fails the second. If both fail, the failure further on counts. -/
def orElse {α : Type} (first second : Reader α) : Reader α := fun state =>
  match first state with
  | .ok result => .ok result
  | .error offset =>
    match second state with
    | .ok result => .ok result
    | .error other => .error (max offset other)

/-! ### Building nodes -/

def push (node : SyntaxTree) : Reader Unit :=
  modify fun s => { s with built := node :: s.built }

def takeLeaf (cursor : Cursor) (length : Nat) (kind : String) (named : Bool) : Reader Unit := do
  let after := cursor.advance length
  push (.node { kind, start := cursor.offset, stop := after.offset, named } [])
  modify fun s => { s with cursor := after }

def takePlain (markup : Bool := false) : Reader Unit := do
  let cursor ← nextCursor markup
  let length := (tokenAt cursor.rest).length
  takeLeaf cursor length (String.ofList (cursor.rest.take length)) false

def takeNamed (kind : String) (markup : Bool := false) : Reader Unit := do
  let cursor ← nextCursor markup
  takeLeaf cursor (tokenAt cursor.rest).length kind true

def mark (text : String) : Reader Unit := do
  if ← atMark text then takePlain else reject

def mark? (text : String) : Reader Bool := do
  if ← atMark text then
    takePlain
    return true
  else return false

def word (text : String) : Reader Unit := do
  if ← atWord text then takePlain else reject

def word? (text : String) : Reader Bool := do
  if ← atWord text then
    takePlain
    return true
  else return false

def withKind (kind : String) : SyntaxTree → SyntaxTree
  | .node info children => .node { info with kind } children

def withField (field : String) : SyntaxTree → SyntaxTree
  | .node info children => .node { info with field := some field } children

def changeLatest (change : SyntaxTree → SyntaxTree) : Reader Unit :=
  modify fun s =>
    match s.built with
    | [] => s
    | node :: rest => { s with built := change node :: rest }

def held (field : String) (reader : Reader Unit) : Reader Unit := do
  reader
  changeLatest (withField field)

def pop : Reader SyntaxTree := do
  let state ← get
  match state.built with
  | [] => reject
  | node :: rest =>
    set { state with built := rest }
    return node

/-- Makes a node of children that are in order. Its range goes from the first child up to `stop`. -/
def nodeOf (kind : String) (children : List SyntaxTree) (stop : Nat) : SyntaxTree :=
  let start := match children with
    | [] => stop
    | child :: _ => child.info.start
  .node { kind, start, stop } children

/-- Runs a reader on a list of its own, begun with `first`, and gives its answer and what it built, in
order. -/
def collecting {α : Type} (first : List SyntaxTree) (reader : Reader α) :
    Reader (α × List SyntaxTree) := do
  let outer := (← get).built
  modify fun s => { s with built := first }
  let answer ← reader
  let inner := (← get).built
  modify fun s => { s with built := outer }
  return (answer, inner.reverse)

/-- Runs a reader on a list of its own, begun with `first`, and gives what it built in order. -/
def collect (first : List SyntaxTree) (reader : Reader Unit) : Reader (List SyntaxTree) :=
  return (← collecting first reader).2

def finish (kind : String) (children : List SyntaxTree) : Reader Unit := do
  push (nodeOf kind children (← get).cursor.offset)

def node (kind : String) (reader : Reader Unit) : Reader Unit := do
  finish kind (← collect [] reader)

/-- Reads on from the latest node, which becomes the first child, under a field, of the node read. -/
def nodeAround (kind : String) (field : Option String) (reader : Reader Unit) : Reader Unit := do
  let first ← pop
  let first := match field with
    | none => first
    | some field => withField field first
  finish kind (← collect [first] reader)

/-- Reads something inside brackets, or where else a line break cannot end a statement. -/
def unbreakable (reader : Reader Unit) : Reader Unit := do
  let flag := (← get).breakable
  modify fun s => { s with breakable := false }
  reader
  modify fun s => { s with breakable := flag }

def breakable (reader : Reader Unit) : Reader Unit := do
  let flag := (← get).breakable
  modify fun s => { s with breakable := true }
  reader
  modify fun s => { s with breakable := flag }

/-! ### Ends of statements -/

def atStatementEnd (afterOperand : Bool) : Reader Bool :=
  return ((← get).cursor.statementEnd? afterOperand).isSome

/-- Takes the end of a statement that has no semicolon, with the comments that belong to it; does
nothing if the statement does not end here. -/
def takeStatementEnd (afterOperand : Bool) : Reader Bool := do
  match (← get).cursor.statementEnd? afterOperand with
  | some cursor =>
    modify fun s => { s with cursor }
    return true
  | none => return false

def semicolon (afterOperand : Bool) : Reader Unit := do
  if !(← takeStatementEnd afterOperand) then mark ";"

/-- A line break ends the statement here, after what may be a name. -/
def brokenOff : Reader Bool := do
  if (← get).breakable then atStatementEnd true else return false

end Reader

end NotebookCell.Script
