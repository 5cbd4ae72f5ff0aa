import NotebookCell.SourceMap.Build
import NotebookCell.Text.Quoted

/-!
# Source maps as JSON text

The JSON text of a source map is indented by two spaces per level and holds only ASCII: other
characters, and the controls without a short form, are written by their UTF-16 units.
-/

namespace NotebookCell

inductive JsonValue where
  | number (n : Nat)
  | string (s : String)
  | array (items : List JsonValue)
  | object (fields : List (String × JsonValue))

namespace JsonValue

def unitEscape (unit : Nat) : List Char := '\\' :: 'u' :: Text.hexDigits unit 4

def escapeChar (c : Char) : List Char :=
  let n := c.toNat
  if c = '"' then ['\\', '"']
  else if c = '\\' then ['\\', '\\']
  else if c = '\n' then ['\\', 'n']
  else if c = '\r' then ['\\', 'r']
  else if c = '\t' then ['\\', 't']
  else if n = 8 then ['\\', 'b']
  else if n = 12 then ['\\', 'f']
  else if 0x20 ≤ n && n ≤ 0x7E then [c]
  else if n < 0x10000 then unitEscape n
  else unitEscape (0xD800 + (n - 0x10000) / 0x400) ++ unitEscape (0xDC00 + (n - 0x10000) % 0x400)

def quote (s : String) : List Char := '"' :: (s.toList.flatMap escapeChar ++ ['"'])

def lineBreak (level : Nat) : List Char := '\n' :: List.replicate (2 * level) ' '

mutual

def render (level : Nat) : JsonValue → List Char
  | .number n => (toString n).toList
  | .string s => quote s
  | .array [] => ['[', ']']
  | .array (item :: items) =>
    '[' :: (lineBreak (level + 1) ++ render (level + 1) item ++ renderItems (level + 1) items ++
      lineBreak level ++ [']'])
  | .object [] => ['{', '}']
  | .object ((name, value) :: fields) =>
    '{' :: (lineBreak (level + 1) ++ quote name ++ [':', ' '] ++ render (level + 1) value ++
      renderFields (level + 1) fields ++ lineBreak level ++ ['}'])

def renderItems (level : Nat) : List JsonValue → List Char
  | [] => []
  | item :: items => ',' :: (lineBreak level ++ render level item ++ renderItems level items)

def renderFields (level : Nat) : List (String × JsonValue) → List Char
  | [] => []
  | (name, value) :: fields =>
    ',' :: (lineBreak level ++ quote name ++ [':', ' '] ++ render level value ++
      renderFields level fields)

end

end JsonValue

def SourceMap.toJsonValue (map : SourceMap) : JsonValue :=
  .object [
    ("version", .number SourceMap.version),
    ("file", .string map.file),
    ("sources", .array (map.sources.map .string)),
    ("sourcesContent", .array (map.contents.map .string)),
    ("names", .array []),
    ("mappings", .string map.mappings)]

def SourceMap.render (map : SourceMap) : String := String.ofList (map.toJsonValue.render 0)

end NotebookCell
