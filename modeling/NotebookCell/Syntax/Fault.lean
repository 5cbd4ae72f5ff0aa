import NotebookCell.Provenance.MappedText
import NotebookCell.Text.Lines
import NotebookCell.Text.Quoted

/-!
# Syntax faults

What is wrong with a cell that does not parse, and where the cell shows it. The place is found from
the origins of the text that was parsed: it is the origin of the first tagged character from the
fault to the end of its line. A fault in text that was made up has no place. A fault on a line that
its file does not have cannot be shown, and looking the line up is what fails.
-/

namespace NotebookCell

inductive SyntaxFaultKind where
  | missing (kind : String)
  | unexpected (snippet : List Char)
  | unexpectedEnd
  | wrapperClosed
  /-- The text is an expression of another kind than a function. -/
  | notAFunction (kind : String)
  | noBody
  | custom (message : String)
deriving DecidableEq

def SyntaxFaultKind.message : SyntaxFaultKind → String
  | .missing kind => s!"Missing {Text.quoted kind.toList}"
  | .unexpected snippet => s!"Unexpected {Text.quoted snippet}"
  | .unexpectedEnd => "Unexpected end of input"
  | .wrapperClosed => "Cell closes the wrapper function"
  | .notAFunction kind => s!"Wrapper parsed as {kind}, expected a function expression"
  | .noBody => "Wrapper function has no body"
  | .custom message => message

/-- Where a source shows a fault, and the source line there; `none` if the file has no such line. -/
structure FaultPlace where
  position : Position
  line? : Option String
deriving DecidableEq

def FaultPlace.lineText (place : FaultPlace) : String := place.line?.getD ""

def FaultPlace.fileName (place : FaultPlace) : String := place.position.file.shownName

def FaultPlace.lineNumber (place : FaultPlace) : Nat := place.position.line + 1

def FaultPlace.offset (place : FaultPlace) : Nat := place.position.column + 1

structure SyntaxFault where
  kind : SyntaxFaultKind
  place : Option FaultPlace := none
deriving DecidableEq

/-- The line of the place, if there is one, is found. -/
def SyntaxFault.isShown (fault : SyntaxFault) : Bool :=
  fault.place.all fun place => place.line?.isSome

def SyntaxFault.message (fault : SyntaxFault) : String :=
  if fault.isShown then fault.kind.message else "list index out of range"

def SyntaxFault.describe (fault : SyntaxFault) : String :=
  match fault.place with
  | none => fault.kind.message
  | some place => s!"{place.position.format true}: {fault.kind.message}"

/-- The origin of the first tagged character, provided that no line ends before it. -/
def MappedText.originOnLine? : MappedText → Option Position
  | [] => none
  | c :: rest =>
    match c.origin with
    | some origin => some origin
    | none => if c.isNewline then none else MappedText.originOnLine? rest

/-- The line of its file that a position lies on; `none` if the file has no such line. -/
def Position.lineText? (position : Position) : Option String :=
  (Text.splitLines position.file.text.toList)[position.line]?.map String.ofList

def SyntaxFault.at (kind : SyntaxFaultKind) (offset : Int) (source : MappedText) : SyntaxFault :=
  { kind
    place := (source.slice offset none).originOnLine?.map fun position =>
      { position, line? := position.lineText? } }

end NotebookCell
