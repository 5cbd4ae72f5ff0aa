import NotebookCell.Text.Printable

/-!
# Quoted text

Text as it is quoted in messages. The quotes are single ones, unless the text holds a single quote and
no double one. The quote, the backslash, line feeds, carriage returns and tabs are written with a
backslash; other characters that cannot be shown are written by their code point in two, four or eight
hexadecimal digits.
-/

namespace NotebookCell.Text

def hexDigit (n : Nat) : Char := (Nat.toDigits 16 (n % 16)).headD '0'

/-- The lowest `width` hexadecimal digits of a number, highest first. -/
def hexDigits (n : Nat) : Nat → List Char
  | 0 => []
  | width + 1 => hexDigits (n / 16) width ++ [hexDigit n]

def quoteFor (text : List Char) : Char :=
  if text.contains '\'' && !text.contains '"' then '"' else '\''

def quotedChar (quote c : Char) : List Char :=
  if c = quote || c = '\\' then ['\\', c]
  else if c = '\n' then ['\\', 'n']
  else if c = '\r' then ['\\', 'r']
  else if c = '\t' then ['\\', 't']
  else if isPrintable c then [c]
  else if c.toNat < 0x100 then '\\' :: 'x' :: hexDigits c.toNat 2
  else if c.toNat < 0x10000 then '\\' :: 'u' :: hexDigits c.toNat 4
  else '\\' :: 'U' :: hexDigits c.toNat 8

def quoted (text : List Char) : String :=
  let quote := quoteFor text
  String.ofList (quote :: (text.flatMap (quotedChar quote) ++ [quote]))

end NotebookCell.Text
