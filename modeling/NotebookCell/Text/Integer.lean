import NotebookCell.Text.Blank
import NotebookCell.Text.DecimalDigit

/-!
# Typed integers

An integer as people type it: blanks around it, a sign in front, decimal digits of any script, and
single underscores between digits. An integer of too many digits is refused.
-/

namespace NotebookCell.Text

def groupedDigits? : List Char → Option (List Char)
  | [] => none
  | [c] => if isDigit c then some [c] else none
  | c :: '_' :: rest => if isDigit c then (groupedDigits? rest).map (c :: ·) else none
  | c :: d :: rest => if isDigit c then (groupedDigits? (d :: rest)).map (c :: ·) else none

/-- The most digits that a typed integer may have. -/
def maxDigits : Nat := 4300

/-- The number that digits spell, if they are not too many. -/
def natural? (text : List Char) : Option Nat := do
  let digits ← groupedDigits? text
  if digits.length ≤ maxDigits then some (digitsValue digits) else none

def integer? (text : List Char) : Option Int :=
  match trim text with
  | '-' :: digits => (natural? digits).map fun n => -(n : Int)
  | '+' :: digits => (natural? digits).map fun n => (n : Int)
  | digits => (natural? digits).map fun n => (n : Int)

end NotebookCell.Text
