import NotebookCell.Trace.Truncate

/-!
# References to generated code

A trace mentions generated code as `__transpiled_source_` with an id, which a line may follow, and a
column after the line, each behind a colon. A text is a row of such references and of characters that
belong to none; the leftmost reference counts first, and takes as much as it can.
-/

namespace NotebookCell

/-- The decimal digits of a reference: its id, and its line and column as far as it has them. -/
structure Reference where
  id : List Char
  line : Option (List Char) := none
  column : Option (List Char) := none
deriving DecidableEq

def referenceStart : List Char := "__transpiled_source_".toList

def Reference.text (reference : Reference) : List Char :=
  let part : Option (List Char) → List Char := fun digits =>
    match digits with
    | none => []
    | some digits => ':' :: digits
  referenceStart ++ reference.id ++ part reference.line ++ part reference.column

def colonDigits? : List Char → Option (List Char)
  | ':' :: rest =>
    let digits := rest.takeWhile Text.isDigit
    if digits.isEmpty then none else some digits
  | _ => none

/-- The reference that a text begins with. -/
def referenceAt? (text : List Char) : Option Reference := do
  let rest ← afterStart? referenceStart text
  let id := rest.takeWhile Text.isDigit
  if id.isEmpty then none
  else
    let rest := rest.drop id.length
    match colonDigits? rest with
    | none => some { id }
    | some line => some { id, line, column := colonDigits? (rest.drop (line.length + 1)) }

inductive TracePart where
  | plain (c : Char)
  | reference (reference : Reference)
deriving DecidableEq

/-- The parts of a text, the first `skip` characters of which belong to a reference before it. -/
def tracePartsFrom : Nat → List Char → List TracePart
  | _, [] => []
  | skip + 1, _ :: rest => tracePartsFrom skip rest
  | 0, c :: rest =>
    match referenceAt? (c :: rest) with
    | some reference => .reference reference :: tracePartsFrom (reference.text.length - 1) rest
    | none => .plain c :: tracePartsFrom 0 rest

def traceParts (text : List Char) : List TracePart := tracePartsFrom 0 text

end NotebookCell
