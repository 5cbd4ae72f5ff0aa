/-!
# Source files and positions

A source file is a text with an optional name. Its `id` tells apart two files that agree in name and
text. A position names a character of a file by line and column, both counted from zero; columns
count characters.
-/

namespace NotebookCell

def anonymousName : String := "<anonymous>"

structure SourceFile where
  id : Nat
  name : Option String
  text : String
deriving DecidableEq, Inhabited

/-- The name if there is one that is not empty. -/
def nonEmptyName (name : Option String) : Option String :=
  name.filter fun n => !n.isEmpty

/-- The name of a file as it is shown: a missing or empty one reads `<anonymous>`. -/
def SourceFile.shownName (file : SourceFile) : String :=
  (nonEmptyName file.name).getD anonymousName

structure Position where
  file : SourceFile
  line : Nat
  column : Nat
deriving DecidableEq, Inhabited

/-- A position as text, lines and columns counted from one. -/
def Position.format (position : Position) (withColumn : Bool) : String :=
  let place := s!"{position.file.shownName}:{position.line + 1}"
  if withColumn then s!"{place}:{position.column + 1}" else place

def Position.next (position : Position) (c : Char) : Position :=
  if c = '\n' then { position with line := position.line + 1, column := 0 }
  else { position with column := position.column + 1 }

end NotebookCell
