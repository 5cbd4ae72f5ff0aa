import NotebookCell.Provenance.MappedText
import NotebookCell.Pass.Names
import NotebookCell.Text.Lines

/-!
# The wrapper of a cell

A cell is put into an asynchronous function expression whose name and engine-facing address are made
from the id of the cell. A comment behind the function carries the name of the cell; line boundaries
in that name become spaces, so that the comment stays one line.
-/

namespace NotebookCell

def wrapperName (id : Int) : String := s!"__cell_{id}__"

/-- The address under which an engine knows the code of cell `id`. -/
def sourceUrl (id : Int) : String := s!"__transpiled_source_{id}"

def sourceUrlMarker (id : Int) : String := s!"\n//# sourceURL={sourceUrl id}"

/-- The name of a cell as a comment can carry it. -/
def commentLabel (name : Option String) : List Char :=
  Text.joinWith [' '] (Text.boundaryLines ((nonEmptyName name).getD anonymousName).toList)

def wrapperHeader (id : Int) : List Char :=
  ("(async function " ++ wrapperName id ++ "(" ++
    String.intercalate ", " [namespaceName, importName, consoleName] ++ ") \x7b\n").toList

def wrapperFooter (name : Option String) : List Char :=
  "\n\x7d)//# sourceUrl=".toList ++ commentLabel name

/-- A cell in its wrapper; header and footer are nobody's text. -/
def wrapCell (source : MappedText) (id : Int) (name : Option String) : MappedText :=
  MappedText.ofChars (wrapperHeader id) none ++ source ++
    MappedText.ofChars (wrapperFooter name) none

end NotebookCell
