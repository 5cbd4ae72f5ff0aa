import NotebookCell.Provenance.MappedText

/-!
# Splitting mapped text

The text is cut at the leftmost occurrences of a separator that do not overlap. Occurrences are found
among the code points of the text, and their places are then read as places of characters; the two
agree as long as every character shows one code point.
-/

namespace NotebookCell

/-- The first place at or after `place` where `pattern` occurs, `text` being what follows `place`. -/
def findFrom (pattern : List Char) (place : Nat) : List Char → Option Nat
  | [] => if pattern.isEmpty then some place else none
  | c :: rest =>
    if pattern.isPrefixOf (c :: rest) then some place else findFrom pattern (place + 1) rest

/-- The first place at or after `start` where `pattern` occurs in `text`. -/
def findAt (pattern text : List Char) (start : Nat) : Option Nat :=
  if start ≤ text.length then findFrom pattern start (text.drop start) else none

/-- The places where `pattern` occurs in `text`, leftmost first, none overlapping the one before.
At most `fuel` of them are found. -/
def occurrences (pattern text : List Char) : Nat → Nat → List Nat
  | 0, _ => []
  | fuel + 1, start =>
    match findAt pattern text start with
    | none => []
    | some place => place :: occurrences pattern text fuel (place + pattern.length)

namespace MappedText

/-- The pieces of `text` from `start` on, cut at `places`, each cut `width` characters wide. -/
def cutAt (text : MappedText) (width start : Nat) : List Nat → List MappedText
  | [] => [text.drop start]
  | place :: places => (text.take place).drop start :: cutAt text width (place + width) places

/-- The pieces between occurrences of `separator`; an empty separator gives one piece per
character. -/
def split (text : MappedText) (separator : List Char) : List MappedText :=
  if separator.isEmpty then text.map fun c => [c]
  else
    let chars := text.chars
    cutAt text separator.length 0 (occurrences separator chars (chars.length + 1) 0)

end MappedText

end NotebookCell
