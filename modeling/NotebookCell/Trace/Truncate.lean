import NotebookCell.Text.DecimalDigit
import NotebookCell.Text.Lines

/-!
# Truncating stack traces

The frames below the outermost cell belong to the host. A trace ends with the first line, its message
line left aside, in which the name of a wrapper function occurs; there the name is replaced by a label.
-/

namespace NotebookCell

def topLevelLabel : List Char := "<top level>".toList

def afterStart? (start text : List Char) : Option (List Char) :=
  if start.isPrefixOf text then some (text.drop start.length) else none

/-- What follows the wrapper name that a text begins with: `__cell_`, decimal digits, `__`. -/
def afterWrapperName? (text : List Char) : Option (List Char) := do
  let rest ← afterStart? "__cell_".toList text
  if (rest.takeWhile Text.isDigit).isEmpty then none
  else afterStart? "__".toList (rest.dropWhile Text.isDigit)

/-- A line with its leftmost wrapper name replaced by the label; `none` if it holds no such name. -/
def relabelLine? : List Char → Option (List Char)
  | [] => none
  | c :: rest =>
    match afterWrapperName? (c :: rest) with
    | some after => some (topLevelLabel ++ after)
    | none => (relabelLine? rest).map (c :: ·)

/-- The lines up to the first with a wrapper name, which is relabelled; `none` if there is none. -/
def truncateFrames? : List (List Char) → Option (List (List Char))
  | [] => none
  | line :: lines =>
    match relabelLine? line with
    | some relabelled => some [relabelled]
    | none => (truncateFrames? lines).map (line :: ·)

/-- A stack trace without the frames below the outermost cell. -/
def truncateStack (stack : List Char) : List Char :=
  match Text.splitLines stack with
  | [] => stack
  | message :: frames =>
    match truncateFrames? frames with
    | some kept => Text.joinWith ['\n'] (message :: kept)
    | none => stack

end NotebookCell
