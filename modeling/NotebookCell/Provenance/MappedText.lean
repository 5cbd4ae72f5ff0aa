import NotebookCell.Provenance.SourceFile
import NotebookCell.Text.Slice

/-!
# Mapped text

A text in which every character may carry the position that it was read from. Text that was made up
carries none. No operation changes the origin of a character: pieces are taken and joined as they
are.
-/

namespace NotebookCell

/-- One character of a mapped text. Its `glyph` is normally a single code point, but a character put
together by hand may show several or none. -/
structure MappedChar where
  glyph : List Char
  origin : Option Position := none
deriving DecidableEq, Inhabited

def MappedChar.IsSingle (c : MappedChar) : Prop := ∃ ch, c.glyph = [ch]

def MappedChar.isNewline (c : MappedChar) : Bool := c.glyph == ['\n']

abbrev MappedText := List MappedChar

namespace MappedText

def ofChars (chars : List Char) (origin : Option Position) : MappedText :=
  chars.map fun c => ⟨[c], origin⟩

/-- Plain text, all with one origin (by default with none). -/
def ofString (text : String) (origin : Option Position := none) : MappedText :=
  ofChars text.toList origin

def chars (text : MappedText) : List Char := text.flatMap MappedChar.glyph

def toString (text : MappedText) : String := String.ofList text.chars

def firstOrigin (text : MappedText) : Option Position :=
  match text with
  | [] => none
  | c :: _ => c.origin

def slice (text : MappedText) (start : Int) (stop : Option Int) : MappedText :=
  Text.slice text start stop

end MappedText

/-- The characters of `chars`, each at its place when the first stands at `position`. -/
def Position.tag (position : Position) : List Char → MappedText
  | [] => []
  | c :: rest => ⟨[c], some position⟩ :: (position.next c).tag rest

def SourceFile.mapped (file : SourceFile) : MappedText :=
  Position.tag ⟨file, 0, 0⟩ file.text.toList

/-! ### Small laws -/

@[simp] theorem MappedText.chars_nil : MappedText.chars [] = [] := rfl

theorem MappedText.chars_cons {c : MappedChar} {ch : Char} (h : c.glyph = [ch]) (text : MappedText) :
    MappedText.chars (c :: text) = ch :: MappedText.chars text := by
  rw [MappedText.chars, List.flatMap_cons, h]
  rfl

@[simp] theorem MappedText.chars_append (a b : MappedText) :
    MappedText.chars (a ++ b) = MappedText.chars a ++ MappedText.chars b := by
  simp [MappedText.chars]

@[simp] theorem MappedText.chars_ofChars (cs : List Char) (o : Option Position) :
    MappedText.chars (MappedText.ofChars cs o) = cs := by
  induction cs with
  | nil => rfl
  | cons c cs ih =>
    simp only [MappedText.chars, MappedText.ofChars, List.map_cons, List.flatMap_cons] at ih ⊢
    simp [ih]

@[simp] theorem Position.chars_tag (p : Position) (cs : List Char) :
    MappedText.chars (p.tag cs) = cs := by
  induction cs generalizing p with
  | nil => rfl
  | cons c cs ih =>
    have h := ih (p.next c)
    simp only [MappedText.chars, Position.tag, List.flatMap_cons] at h ⊢
    simp [h]

end NotebookCell
