import NotebookCell.Syntax.Fault

/-!
# Locating generated characters

Lines and columns of generated text count from one. A character that nobody wrote has no origin; the
first tagged character after it on the same generated line stands in for it.
-/

namespace NotebookCell

/-- The origin at `line` and `column` of a text whose first character stands at `atLine` and
`atColumn`. -/
def locateFrom (line column : Int) : Int → Int → MappedText → Option Position
  | _, _, [] => none
  | atLine, atColumn, c :: rest =>
    if atLine = line ∧ atColumn = column then MappedText.originOnLine? (c :: rest)
    else if line < atLine then none
    else if c.isNewline then locateFrom line column (atLine + 1) 1 rest
    else locateFrom line column atLine (atColumn + 1) rest

/-- The origin of the character at `line` and `column`, or of the first tagged one after it on that
line. -/
def locate (source : MappedText) (line column : Int) : Option Position :=
  locateFrom line column 1 1 source

end NotebookCell
