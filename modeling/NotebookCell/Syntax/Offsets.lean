/-!
# Byte offsets and character offsets

A parser counts the bytes of the UTF-8 form of a text; edits count its characters. `charOffsets`
lists, for every byte of a text, the character that the byte belongs to, and the length of the text
for the place after the last byte.
-/

namespace NotebookCell

/-- The characters' offsets byte by byte, the first character having the offset `index`. -/
def charOffsetsFrom (index : Nat) : List Char → List Nat
  | [] => [index]
  | c :: rest => List.replicate c.utf8Size index ++ charOffsetsFrom (index + 1) rest

/-- The character offset at every byte offset of `text`, its end included. -/
def charOffsets (text : List Char) : List Nat := charOffsetsFrom 0 text

def byteLength : List Char → Nat
  | [] => 0
  | c :: rest => c.utf8Size + byteLength rest

theorem length_charOffsetsFrom (index : Nat) (text : List Char) :
    (charOffsetsFrom index text).length = byteLength text + 1 := by
  induction text generalizing index with
  | nil => rfl
  | cons c rest ih => simp [charOffsetsFrom, byteLength, ih]; omega

end NotebookCell
