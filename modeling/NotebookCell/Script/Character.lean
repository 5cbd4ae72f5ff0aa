/-!
# Characters of scripts

Which characters separate tokens, which end a line comment, and which make up words.
-/

namespace NotebookCell.Script

def isSeparator (c : Char) : Bool :=
  let n := c.toNat
  (0x09 ≤ n && n ≤ 0x0D) || n == 0x20 || n == 0x85 || n == 0xA0 || n == 0x1680 ||
  (0x2000 ≤ n && n ≤ 0x200B) || n == 0x2028 || n == 0x2029 || n == 0x202F || n == 0x205F ||
  n == 0x2060 || n == 0x3000 || n == 0xFEFF

/-- The character is a gap when the end of a statement is looked for. No-break spaces are no gaps. -/
def isGap (c : Char) : Bool :=
  let n := c.toNat
  (0x09 ≤ n && n ≤ 0x0D) || n == 0x20 || n == 0x1680 || (0x2000 ≤ n && n ≤ 0x2006) ||
  (0x2008 ≤ n && n ≤ 0x200A) || n == 0x2028 || n == 0x2029 || n == 0x205F || n == 0x3000

def isLineBreak (c : Char) : Bool :=
  let n := c.toNat
  n == 0x0A || n == 0x2028 || n == 0x2029

def endsLineComment (c : Char) : Bool := isLineBreak c || c == '\r'

def isDecimal (c : Char) : Bool := '0' ≤ c && c ≤ '9'

def isHex (c : Char) : Bool :=
  isDecimal c || ('a' ≤ c && c ≤ 'f') || ('A' ≤ c && c ≤ 'F')

def wordBreakers : List Char := ":;\x60\"'@#.,|^&<=>+-*/\\%?!~()[]\x7b\x7d".toList

def isWordPart (c : Char) : Bool :=
  0x20 ≤ c.toNat && !isSeparator c && !wordBreakers.contains c

def isWordStart (c : Char) : Bool := isWordPart c && !isDecimal c

/-- The number of characters of an escape for a code point at the start of a text, if there is one:
four hexadecimal digits, or digits in braces. -/
def unicodeEscapeLength? : List Char → Option Nat
  | '\\' :: 'u' :: '{' :: rest =>
    let digits := rest.takeWhile isHex
    match rest.drop digits.length with
    | '}' :: _ => if digits.isEmpty then none else some (digits.length + 4)
    | _ => none
  | '\\' :: 'u' :: a :: b :: c :: d :: _ =>
    if isHex a && isHex b && isHex c && isHex d then some 6 else none
  | _ => none

/-- The number of characters of the word part that a text begins with, the first `skip` characters
belonging to an escape before it. -/
def wordTailLength : Nat → List Char → Nat
  | _, [] => 0
  | skip + 1, _ :: rest => wordTailLength skip rest + 1
  | 0, c :: rest =>
    if isWordPart c then wordTailLength 0 rest + 1
    else
      match unicodeEscapeLength? (c :: rest) with
      | some length => wordTailLength (length - 1) rest + 1
      | none => 0

/-- The number of characters of the word that a text begins with; zero if it begins with none. -/
def wordLength (text : List Char) : Nat :=
  match text with
  | [] => 0
  | c :: _ =>
    if isWordStart c || (unicodeEscapeLength? text).isSome then wordTailLength 0 text else 0

def reservedWords : List String :=
  ["break", "case", "catch", "class", "const", "continue", "debugger", "default", "delete", "do",
    "else", "enum", "extends", "false", "finally", "for", "function", "if", "import", "in",
    "instanceof", "new", "null", "return", "super", "switch", "this", "throw", "true", "try", "typeof",
    "var", "void", "while", "with"]

end NotebookCell.Script
