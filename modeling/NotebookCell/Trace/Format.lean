import NotebookCell.Cell.History
import NotebookCell.Text.Integer
import NotebookCell.Trace.Locate
import NotebookCell.Trace.Reference

/-!
# Stack traces in terms of cells

A reported error is reduced to a text, the text is truncated, and every reference to generated code is
replaced by the place in the cell that the code came from. A reference that leads nowhere stays as it
is; a number in one that is too long to be read breaks the work off.
-/

namespace NotebookCell

/-- An error raised by generated code, as a host reports it. -/
structure ScriptError where
  message : String
  name : String
  stack : String
deriving DecidableEq

/-- A script error; without a stack, the stack is the name and the message. -/
def ScriptError.create (message : String) (stack : Option String) (name : String) : ScriptError :=
  { message, name, stack := stack.getD s!"{name}: {message}" }

inductive ReportedError where
  | text (stack : String)
  /-- A table that may hold a stack and a message. -/
  | table (stack message : Option String)
  | script (error : ScriptError)
  /-- Anything else that may have a stack and a message; `shown` is how it shows itself. -/
  | object (stack message : Option String) (shown : String)

/-- The text of an error that has a stack or a message: an empty stack counts as none. -/
def stackOrMessage (stack message : Option String) (otherwise : String) : String :=
  match nonEmptyName stack with
  | some stack => stack
  | none => message.getD otherwise

def ReportedError.stackText : ReportedError → String
  | .text stack => stack
  | .table stack message => stackOrMessage stack message ""
  | .script error => stackOrMessage (some error.stack) (some error.message) ""
  | .object stack message shown => stackOrMessage stack message shown

/-- What a reference stands for: the name of the cell if it has no line, else the place of the
character there. -/
def History.resolve? (history : History) (reference : Reference) : Option String := do
  let record ← history.get? (Text.digitsValue reference.id)
  match reference.line with
  | none => nonEmptyName record.name
  | some line =>
    let column := match reference.column with
      | none => 1
      | some column => Text.digitsValue column
    let origin ← locate record.source (Text.digitsValue line) column
    return origin.format reference.column.isSome

def History.renderPart (history : History) : TracePart → List Char
  | .plain c => [c]
  | .reference reference =>
    match history.resolve? reference with
    | some place => place.toList
    | none => reference.text

/-- The trace of an error in terms of cells. -/
def History.formatStack (history : History) (stack : List Char) : List Char :=
  (traceParts (truncateStack stack)).flatMap history.renderPart

def History.formatError (history : History) (error : ReportedError) : String :=
  String.ofList (history.formatStack error.stackText.toList)

/-- Why a trace cannot be put in terms of cells. -/
inductive TraceError where
  | tooManyDigits (count : Nat)
deriving DecidableEq

def TraceError.message : TraceError → String
  | .tooManyDigits count =>
    s!"Exceeds the limit ({Text.maxDigits} digits) for integer string conversion: " ++
      s!"value has {count} digits; use sys.set_int_max_str_digits() to increase the limit"

def tooLong? (digits : List Char) : Option Nat :=
  if digits.length ≤ Text.maxDigits then none else some digits.length

/-- The length of the first number of a reference that is looked at and too long. Line and column are
looked at only if the history holds the record. -/
def History.unreadable? (history : History) (reference : Reference) : Option Nat :=
  tooLong? reference.id <|> do
    let _ ← history.get? (Text.digitsValue reference.id)
    let line ← reference.line
    tooLong? line <|> reference.column >>= tooLong?

def History.traceError? (history : History) (stack : List Char) : Option TraceError :=
  (traceParts (truncateStack stack)).findSome? fun
    | .plain _ => none
    | .reference reference => (history.unreadable? reference).map .tooManyDigits

/-- The trace of a reported error in terms of cells, if all of its numbers can be read. -/
def History.showError (history : History) (error : ReportedError) : Except TraceError String :=
  match history.traceError? error.stackText.toList with
  | some failure => .error failure
  | none => .ok (history.formatError error)

end NotebookCell
