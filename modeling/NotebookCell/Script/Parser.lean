import NotebookCell.Script.Module

/-!
# Scripts as syntax trees

`parse` gives the syntax tree of every text. A text that is no script gives a tree that is marked as
faulty, with an error node where reading failed.
-/

namespace NotebookCell.Script

open Reader

/-- The grammar of constructs that are nested at most `depth` deep. -/
def grammarOf : Nat → Grammar
  | 0 => fun _ => reject
  | depth + 1 => fun construct =>
    match construct with
    | .expressions => expressions (grammarOf depth)
    | .expression => expression (grammarOf depth)
    | .operand => operand (grammarOf depth)
    | .statement => statement (grammarOf depth)

/-- A bound on the nesting of constructs in a text: one character opens only a few. -/
def nestingBound (text : List Char) : Nat := 8 * (text.length + 2)

def interpreterLine : Reader Unit := do
  let cursor ← nextCursor true
  match cursor.rest with
  | '#' :: '!' :: _ =>
    takeLeaf cursor (cursor.rest.takeWhile (· != '\n')).length "hash_bang_line" true
  | _ => pure ()

def program (grammar : Grammar) : Reader Unit := do
  interpreterLine
  repeatWhile do
    settle
    if (← peek) == .finish then return false
    grammar .statement
    return true
  if (← nextCursor).rest.isEmpty then pure () else reject

def scriptOf (text : List Char) (statements : List SyntaxTree) : SyntaxTree :=
  .node { kind := "program", start := 0, stop := byteLength text } statements

def faultyScript (text : List Char) (offset : Nat) : SyntaxTree :=
  let size := byteLength text
  .node { kind := "program", start := 0, stop := size, hasError := true }
    [.node { kind := "ERROR", start := offset, stop := size, hasError := true } []]

/-- The offset of the first NUL of a text. No part of a script can hold one. -/
def nulOffset? (text : List Char) : Option Nat :=
  if text.contains '\x00' then some (byteLength (text.takeWhile (· != '\x00'))) else none

/-- Reads a script: its statements, or the offset at which it is none. -/
def statements (text : List Char) : Except Nat (List SyntaxTree) := do
  if let some offset := nulOffset? text then throw offset
  let start : ReaderState := { cursor := { rest := text, offset := 0 }, size := text.length + 1 }
  let (_, state) ← (program (grammarOf (nestingBound text))).run start
  if let some offset := strayDefaultIn? state.built.reverse then throw offset
  return state.built.reverse

def parse (text : List Char) : SyntaxTree :=
  match statements text with
  | .ok statements => scriptOf text statements
  | .error offset => faultyScript text offset

end NotebookCell.Script
