import NotebookCell.Script.Pattern

/-!
# The constructs that contain each other

Expressions and statements contain each other to any depth. A grammar reads each of them, and the
readers of single constructs are written over a grammar.
-/

namespace NotebookCell.Script

open Reader

inductive Construct where
  /-- One expression, or several with commas between them. -/
  | expressions
  | expression
  | operand
  | statement
deriving DecidableEq

abbrev Grammar := Construct → Reader Unit

/-- Where a function or a class stands, which decides what may follow it. -/
inductive Place where
  | operand
  | statement
  | exported
deriving DecidableEq

/-! ### Lists -/

/-- Reads items up to the mark `close`, a comma after each but the last, where it may be left out. -/
def items (item : Reader Unit) (close : String) : Reader Unit :=
  repeatWhile do
    if ← atMark close then return false
    item
    if !(← atMark close) then mark ","
    return true

/-- Reads items up to the mark `close`. Between commas an item may be left out. -/
def itemsWithHoles (item : Reader Unit) (close : String) : Reader Unit :=
  repeatWhile do
    if ← atMark close then return false
    if ← mark? "," then return true
    item
    if !(← atMark close) then mark ","
    return true

def spread (grammar : Grammar) : Reader Unit :=
  node "spread_element" do
    mark "..."
    grammar .expression

def spreadOrExpression (grammar : Grammar) : Reader Unit := do
  if ← atMark "..." then spread grammar else grammar .expression

def arguments (grammar : Grammar) : Reader Unit :=
  node "arguments" do
    unbreakable do
      mark "("
      itemsWithHoles (spreadOrExpression grammar) ")"
      mark ")"

/-! ### Blocks -/

def braced (grammar : Grammar) : Reader Unit :=
  breakable do
    mark "\x7b"
    repeatWhile do
      if ← atMark "\x7d" then return false
      grammar .statement
      return true
    mark "\x7d"

def block (grammar : Grammar) (afterOperand : Bool) : Reader Unit :=
  node "statement_block" do
    braced grammar
    let _ ← takeStatementEnd afterOperand

def condition (grammar : Grammar) : Reader Unit :=
  node "parenthesized_expression" do
    unbreakable do
      mark "("
      grammar .expressions
      mark ")"

end NotebookCell.Script
