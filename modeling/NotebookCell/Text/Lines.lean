/-!
# Lines

Three ways of cutting a text into lines: at line feeds only (`splitLines`), at every character that
Unicode or the ASCII controls treat as a line boundary (`boundaryLines`), and the reading of a file
in which every line ending counts as one line feed (`universalNewlines`).
-/

namespace NotebookCell.Text

/-- The pieces between the characters equal to `sep`; one more piece than separators. -/
def splitOnChar (sep : Char) : List Char → List (List Char)
  | [] => [[]]
  | c :: rest =>
    if c = sep then [] :: splitOnChar sep rest
    else
      match splitOnChar sep rest with
      | [] => [[c]]
      | piece :: pieces => (c :: piece) :: pieces

def splitLines (text : List Char) : List (List Char) := splitOnChar '\n' text

/-- The pieces with `sep` between each two of them. -/
def joinWith {α : Type} (sep : List α) : List (List α) → List α
  | [] => []
  | [piece] => piece
  | piece :: pieces => piece ++ sep ++ joinWith sep pieces

theorem splitOnChar_ne_nil (sep : Char) (text : List Char) : splitOnChar sep text ≠ [] := by
  cases text with
  | nil => simp [splitOnChar]
  | cons c rest =>
    simp only [splitOnChar]
    split
    · simp
    · split <;> simp

theorem joinWith_splitOnChar (sep : Char) (text : List Char) :
    joinWith [sep] (splitOnChar sep text) = text := by
  induction text with
  | nil => rfl
  | cons c rest ih =>
    simp only [splitOnChar]
    split
    · rename_i hc
      cases h : splitOnChar sep rest with
      | nil => exact absurd h (splitOnChar_ne_nil sep rest)
      | cons piece pieces =>
        rw [h] at ih
        simp [joinWith, ih, hc]
    · cases h : splitOnChar sep rest with
      | nil => exact absurd h (splitOnChar_ne_nil sep rest)
      | cons piece pieces =>
        rw [h] at ih
        cases pieces with
        | nil => simpa [joinWith] using ih
        | cons p ps => simp [joinWith, List.append_assoc] at ih ⊢; exact ih

/-- The characters that end a line for `boundaryLines`. -/
def isLineBoundary (c : Char) : Bool :=
  let n := c.toNat
  (0x0A ≤ n && n ≤ 0x0D) || (0x1C ≤ n && n ≤ 0x1E) || n == 0x85 || n == 0x2028 || n == 0x2029

/-- Reads one line: `line` holds its characters so far, latest first. -/
def boundaryLinesFrom (line : List Char) : List Char → List (List Char)
  | [] => if line.isEmpty then [] else [line.reverse]
  | '\r' :: '\n' :: rest => line.reverse :: boundaryLinesFrom [] rest
  | c :: rest =>
    if isLineBoundary c then line.reverse :: boundaryLinesFrom [] rest
    else boundaryLinesFrom (c :: line) rest

/-- The lines of a text without their ends; a carriage return and a line feed are one end, and an end
at the end of the text opens no further line. -/
def boundaryLines (text : List Char) : List (List Char) := boundaryLinesFrom [] text

/-- Every line ending read as a line feed. -/
def universalNewlines : List Char → List Char
  | [] => []
  | '\r' :: '\n' :: rest => '\n' :: universalNewlines rest
  | c :: rest => (if c = '\r' then '\n' else c) :: universalNewlines rest

end NotebookCell.Text
