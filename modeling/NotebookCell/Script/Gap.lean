import NotebookCell.Script.Character
import NotebookCell.Syntax.Offsets

/-!
# Gaps between tokens and the ends of statements

A cursor is a place in a text. Separators and comments between tokens are skipped. Where a semicolon
may be left out, `endsStatement` decides from the text that follows whether the statement ends there:
before a closing brace, at the end of the text, and at a line break unless what comes after it goes on
with the statement.
-/

namespace NotebookCell.Script

/-- A place in a text: what follows it, and the number of bytes before it. -/
structure Cursor where
  rest : List Char
  offset : Nat
deriving DecidableEq

def Cursor.advance (cursor : Cursor) (count : Nat) : Cursor :=
  { rest := cursor.rest.drop count, offset := cursor.offset + byteLength (cursor.rest.take count) }

/-- What follows the end of a block comment, given what follows its start; whether a line breaks
inside the comment; and whether the comment ends before the text does. -/
def afterBlockComment (broken : Bool) : List Char → List Char × Bool × Bool
  | [] => ([], broken, false)
  | '*' :: '/' :: rest => (rest, broken, true)
  | c :: rest => afterBlockComment (broken || isLineBreak c) rest

def blockCommentEnd? : List Char → Option Nat
  | [] => none
  | '*' :: '/' :: _ => some 2
  | _ :: rest => (blockCommentEnd? rest).map (· + 1)

/-- The number of characters of the comment that a text begins with, if there is one. Comments in the
style of markup count only where `markup` allows them. -/
def commentLength? (markup : Bool) (text : List Char) : Option Nat :=
  match text with
  | '/' :: '/' :: rest => some (2 + (rest.takeWhile fun c => !endsLineComment c).length)
  | '/' :: '*' :: rest => (blockCommentEnd? rest).map (2 + ·)
  | '<' :: '!' :: '-' :: '-' :: rest =>
    if markup then some (4 + (rest.takeWhile fun c => !isLineBreak c).length) else none
  | '-' :: '-' :: '>' :: rest =>
    if markup then some (3 + (rest.takeWhile fun c => !isLineBreak c).length) else none
  | _ => none

theorem commentLength?_pos {markup : Bool} {text : List Char} {length : Nat}
    (h : commentLength? markup text = some length) : 0 < length ∧ 0 < text.length := by
  unfold commentLength? at h
  split at h
  · cases h
    simp only [List.length_cons]
    omega
  · obtain ⟨size, _, rfl⟩ := Option.map_eq_some_iff.1 h
    simp only [List.length_cons]
    omega
  · split at h
    · cases h
      simp only [List.length_cons]
      omega
    · cases h
  · split at h
    · cases h
      simp only [List.length_cons]
      omega
    · cases h
  · cases h

def Cursor.skipSeparators (cursor : Cursor) : Cursor :=
  cursor.advance (cursor.rest.takeWhile isSeparator).length

theorem Cursor.length_skipSeparators_le (cursor : Cursor) :
    cursor.skipSeparators.rest.length ≤ cursor.rest.length := by
  simp [skipSeparators, advance]

def Cursor.skipGaps (cursor : Cursor) (markup : Bool) : Cursor :=
  match _found : commentLength? markup cursor.skipSeparators.rest with
  | some length => (cursor.skipSeparators.advance length).skipGaps markup
  | none => cursor.skipSeparators
termination_by cursor.rest.length
decreasing_by
  have shorter := cursor.length_skipSeparators_le
  have positive := commentLength?_pos _found
  simp only [Cursor.advance, List.length_drop]
  omega

/-! ### Statement ends -/

inductive GapEnd where
  | slash
  /-- A block comment without a line break. -/
  | sameLine
  | other
deriving DecidableEq

/-- Goes over gaps and comments. Unless `throughout` is set, a block comment that no slash follows ends
the row; then `broken` says whether a line broke inside a comment. -/
def overGaps (throughout : Bool) : Nat → Bool → List Char → GapEnd × List Char
  | 0, _, text => (.other, text)
  | fuel + 1, broken, text =>
    match text.dropWhile isGap with
    | '/' :: '/' :: rest => overGaps throughout fuel broken (rest.dropWhile fun c => !isLineBreak c)
    | '/' :: '*' :: rest =>
      let (after, broken, closed) := afterBlockComment broken rest
      if closed && !throughout && after.head? != some '/' then
        (if broken then .other else .sameLine, after)
      else overGaps throughout fuel broken after
    | '/' :: rest => (.slash, rest)
    | rest => (.other, rest)

def startsLetter (text : List Char) : Bool :=
  match text with
  | [] => false
  | c :: _ => isWordStart c && c != '_' && c != '$'

/-- The words `in` and `instanceof` go on with an expression; other words that start with `i` do not. -/
def wordOnINewLineEnds (afterI : List Char) : Bool :=
  match afterI with
  | 'n' :: rest =>
    if !startsLetter rest then false
    else if "stanceof".toList.isPrefixOf rest then startsLetter (rest.drop 8)
    else true
  | _ => true

def newLineEnds (text : List Char) : Bool :=
  match text with
  | [] => true
  | '.' :: rest => (rest.head?.map isDecimal).getD false
  | '+' :: rest => rest.head? == some '+'
  | '-' :: rest => rest.head? == some '-'
  | '!' :: rest => rest.head? != some '='
  | 'i' :: rest => wordOnINewLineEnds rest
  | c :: _ => !("\x60,:;*%><=[(?^|&/".toList.contains c)

def lineBreakEnds (text : List Char) : Bool :=
  match overGaps true (text.length + 1) false text with
  | (.slash, _) => false
  | (_, rest) => newLineEnds rest

/-- The statement ends in front of `text`. After an operand, a comment on the same line still belongs
to the statement, and the end is looked for behind the comment. -/
def endsStatementFrom (afterOperand : Bool) : Nat → List Char → Bool
  | 0, _ => false
  | fuel + 1, text =>
    let onward (text : List Char) : Bool :=
      match text with
      | [] => false
      | c :: rest =>
        if c == '}' then true
        else if isLineBreak c then lineBreakEnds rest
        else if isGap c then endsStatementFrom afterOperand fuel rest
        else false
    match text with
    | [] => true
    | '/' :: _ =>
      match overGaps false (text.length + 1) false text with
      | (.slash, _) => false
      | (.other, rest) =>
        if !afterOperand && rest.head? != some ',' && rest.head? != some '=' then true
        else onward rest
      | (.sameLine, rest) => onward rest
    | text => onward text

def endsStatement (afterOperand : Bool) (text : List Char) : Bool :=
  endsStatementFrom afterOperand (text.length + 1) text

/-- Where the statement ends at or after a cursor: right there, or behind comments that belong to the
statement; `none` if it does not end. -/
def Cursor.statementEndFrom (afterOperand : Bool) : Nat → Cursor → Option Cursor
  | 0, _ => none
  | fuel + 1, cursor =>
    if endsStatement afterOperand cursor.rest then some cursor
    else
      let next := cursor.skipSeparators
      match commentLength? false next.rest with
      | some length => (next.advance length).statementEndFrom afterOperand fuel
      | none => none

def Cursor.statementEnd? (cursor : Cursor) (afterOperand : Bool) : Option Cursor :=
  cursor.statementEndFrom afterOperand (cursor.rest.length + 1)

end NotebookCell.Script
