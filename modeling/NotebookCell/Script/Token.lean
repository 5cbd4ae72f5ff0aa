import NotebookCell.Script.Gap

/-!
# Tokens of scripts

The token at a place, read as far as it does not depend on what the place expects: words, numbers,
marks, and the starts of quoted texts. Whether a slash divides or starts a regular expression is left
to the reader of the token.
-/

namespace NotebookCell.Script

inductive Token where
  | word (text : List Char)
  | privateName (text : List Char)
  | number (text : List Char)
  | quote (c : Char)
  | mark (text : String)
  | stray
  | finish
deriving DecidableEq

def marks : List String :=
  [">>>=", "...", "===", "!==", "**=", "<<=", ">>=", ">>>", "&&=", "||=", "??=", "=>", "==", "!=",
    "<=", ">=", "&&", "||", "??", "?.", "++", "--", "+=", "-=", "*=", "/=", "%=", "&=", "|=", "^=",
    "<<", ">>", "**", "\x7b", "\x7d", "(", ")", "[", "]", ";", ",", "<", ">", "+", "-", "*", "/", "%",
    "&", "|", "^", "!", "~", "?", ":", "=", ".", "@", "\x60"]

/-- The number of characters of digits, single underscores between them, at the start of a text. -/
def digitsLength (isDigit : Char → Bool) : List Char → Nat
  | [] => 0
  | [c] => if isDigit c then 1 else 0
  | c :: '_' :: d :: rest =>
    if isDigit c then
      if isDigit d then digitsLength isDigit (d :: rest) + 2 else 1
    else 0
  | c :: rest => if isDigit c then digitsLength isDigit rest + 1 else 0

/-- The number of characters of an exponent at the start of a text; zero if there is none. -/
def exponentLength (text : List Char) : Nat :=
  match text with
  | e :: rest =>
    if e == 'e' || e == 'E' then
      let sign := match rest with
        | c :: _ => if c == '+' || c == '-' then 1 else 0
        | [] => 0
      let digits := digitsLength isDecimal (rest.drop sign)
      if digits == 0 then 0 else 1 + sign + digits
    else 0
  | [] => 0

def withBigMark (text : List Char) (length : Nat) : Nat :=
  if (text.drop length).head? == some 'n' then length + 1 else length

/-- The digits that a text begins with can stand before a point or an exponent: a zero by itself, or
digits that begin with at most one zero. -/
def takesFraction (text : List Char) : Bool :=
  match text with
  | '0' :: c :: _ => !(isDecimal c || c == '_') || ('1' ≤ c && c ≤ '9')
  | _ => true

def decimalLength (text : List Char) : Nat :=
  let whole := digitsLength isDecimal text
  let rest := text.drop whole
  if !takesFraction text then withBigMark text whole
  else
    match rest with
    | '.' :: rest =>
      let fraction := digitsLength isDecimal rest
      if whole == 0 && fraction == 0 then 0
      else whole + 1 + fraction + exponentLength (rest.drop fraction)
    | rest =>
      let exponent := exponentLength rest
      if exponent == 0 then withBigMark text whole else whole + exponent

/-- The number of characters of the number that a text begins with; zero if it begins with none. -/
def numberLength (text : List Char) : Nat :=
  match text with
  | '0' :: base :: rest =>
    let isDigit? : Option (Char → Bool) :=
      if base == 'x' || base == 'X' then some isHex
      else if base == 'o' || base == 'O' then some fun c => '0' ≤ c && c ≤ '7'
      else if base == 'b' || base == 'B' then some fun c => c == '0' || c == '1'
      else none
    match isDigit? with
    | some isDigit =>
      let digits := digitsLength isDigit rest
      if digits == 0 then 1 else withBigMark text (digits + 2)
    | none => decimalLength text
  | text => decimalLength text

/-- The mark that a text begins with. A question mark and a point before a digit are two marks. -/
def markAt? (text : List Char) : Option String :=
  match marks.find? fun mark => mark.toList.isPrefixOf text with
  | some "?." => if ((text.drop 2).head?.map isDecimal).getD false then some "?" else some "?."
  | found => found

def tokenAt (text : List Char) : Token :=
  match text with
  | [] => .finish
  | c :: rest =>
    let word := wordLength text
    let number := if isDecimal c || c == '.' then numberLength text else 0
    if word != 0 then .word (text.take word)
    else if number != 0 then .number (text.take number)
    else if c == '"' || c == '\'' then .quote c
    else if c == '#' then
      let name := wordLength rest
      if name == 0 then .stray else .privateName (text.take (name + 1))
    else
      match markAt? text with
      | some mark => .mark mark
      | none => .stray

def Token.length : Token → Nat
  | .word text | .privateName text | .number text => text.length
  | .quote _ => 1
  | .mark text => text.length
  | .stray => 0
  | .finish => 0

def Token.isWord (token : Token) (text : String) : Bool := token == .word text.toList

def Token.isMark (token : Token) (text : String) : Bool := token == .mark text

def Token.isName : Token → Bool
  | .word text => !reservedWords.contains (String.ofList text)
  | _ => false

def Token.startsProperty : Token → Bool
  | .word _ | .privateName _ | .number _ | .quote _ => true
  | .mark text => text == "["
  | _ => false

end NotebookCell.Script
