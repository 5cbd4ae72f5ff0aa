import NotebookCell.Script.Reader

/-!
# Literals

Strings, template strings and regular expressions, whose parts are not separated by gaps.
-/

namespace NotebookCell.Script

open Reader

def takeHere (length : Nat) (kind : String) (named : Bool) : Reader Unit := do
  takeLeaf (← get).cursor length kind named

def rejectHere {α : Type} : Reader α := do throw (← get).cursor.offset

def octalLength (text : List Char) : Nat :=
  ((text.take 3).takeWhile fun c => '0' ≤ c && c ≤ '7').length

def escapeLength? (text : List Char) : Option Nat :=
  match text with
  | '\\' :: 'x' :: a :: b :: _ => if isHex a && isHex b then some 4 else none
  | '\\' :: 'u' :: _ => unicodeEscapeLength? text
  | '\\' :: 'x' :: _ => none
  | '\\' :: c :: rest =>
    if (c == '\r' || c == '?') && (rest.head?.map isLineBreak).getD false then some 3 else
    let octal := octalLength (c :: rest)
    some (if octal == 0 then 2 else octal + 1)
  | _ => none

def escapeSequence : Reader Unit := do
  match escapeLength? (← get).cursor.rest with
  | some length => takeHere length "escape_sequence" true
  | none => rejectHere

/-- One part of a string: plain characters, or an escape sequence. -/
def stringPart (quote : Char) : Reader Bool := do
  let rest := (← get).cursor.rest
  let plain := rest.takeWhile fun c => c != quote && c != '\\' && c != '\n' && c != '\r'
  if !plain.isEmpty then
    takeHere plain.length "string_fragment" true
    return true
  else if rest.head? == some '\\' then
    escapeSequence
    return true
  else return false

/-- Reads a string; the next token is its quote. -/
def stringLiteral : Reader Unit := do
  match ← peek with
  | .quote quote =>
    node "string" do
      takePlain
      repeatWhile (stringPart quote)
      if (← get).cursor.rest.head? == some quote then takeHere 1 (String.singleton quote) false
      else rejectHere
  | _ => reject

/-- The number of plain characters at the start of the inside of a template string. -/
def templateLength : List Char → Nat
  | [] => 0
  | '$' :: '{' :: _ => 0
  | c :: rest => if c == '\x60' || c == '\\' then 0 else templateLength rest + 1

/-- One part of a template string: plain characters, an escape sequence, or a substitution. -/
def templatePart (expressions : Reader Unit) : Reader Bool := do
  let rest := (← get).cursor.rest
  let plain := templateLength rest
  if plain != 0 then
    takeHere plain "string_fragment" true
    return true
  else
    match rest with
    | '\\' :: _ =>
      escapeSequence
      return true
    | '$' :: '{' :: _ =>
      node "template_substitution" do
        takeHere 2 "$\x7b" false
        unbreakable expressions
        mark "\x7d"
      return true
    | _ => return false

/-- Reads a template string; the next token is its backtick. -/
def templateString (expressions : Reader Unit) : Reader Unit :=
  node "template_string" do
    mark "\x60"
    repeatWhile (templatePart expressions)
    if (← get).cursor.rest.head? == some '\x60' then takeHere 1 "\x60" false else rejectHere

/-- The number of characters of a regular expression's pattern. `inClass` is set inside brackets. -/
def patternLength (inClass : Bool) : List Char → Option Nat
  | [] => none
  | '\\' :: c :: rest => if c == '\n' then none else (patternLength inClass rest).map (· + 2)
  | c :: rest =>
    if c == '\n' || c == '\\' then none
    else if c == '/' && !inClass then some 0
    else
      let inside := if c == '[' then true else if c == ']' then false else inClass
      (patternLength inside rest).map (· + 1)

/-- Reads a regular expression; the next character is its slash. -/
def regularExpression : Reader Unit :=
  node "regex" do
    let cursor ← nextCursor true
    match cursor.rest with
    | '/' :: rest =>
      takeLeaf cursor 1 "/" false
      match patternLength false rest with
      | none => rejectHere
      | some 0 => rejectHere
      | some length =>
        held "pattern" (takeHere length "regex_pattern" true)
        takeHere 1 "/" false
        let flags := (← get).cursor.rest.takeWhile fun c => 'a' ≤ c && c ≤ 'z'
        if !flags.isEmpty then held "flags" (takeHere flags.length "regex_flags" true)
    | _ => reject

end NotebookCell.Script
