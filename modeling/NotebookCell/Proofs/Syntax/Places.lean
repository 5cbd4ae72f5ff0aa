import NotebookCell.Proofs.Provenance.Lines
import NotebookCell.Proofs.Syntax.Layout
import NotebookCell.Proofs.Trace.Locations

/-!
# Places of faults

A fault at an offset of a text and the search for the line and the column of that offset answer with
the same position. If the text was put together from files, the position is one of a character of its
file, and the line shown with the fault is the line of that character.
-/

namespace NotebookCell

/-- All origins of the text are positions of characters of their files. -/
def MappedText.FromFiles (text : MappedText) : Prop :=
  ∀ position ∈ text.origins, position ∈ position.file.mapped.origins

/-- What a fault shows is the name of the file, the numbers of a line and of a character in it, and
that line. The line is found in the file. It is the one, without its newline, in which the character
with this position stands, and the number of the character counts in it, unless the character is the
newline that ends it. -/
structure FaultPlace.Genuine (place : FaultPlace) (line : String) : Prop where
  fileName : ShownAs place.position.file.name place.fileName
  lineNumber : place.lineNumber = place.position.line + 1
  offset : place.offset = place.position.column + 1
  found : place.position.lineText? = some line
  shown : place.line? = some line
  newline_not_mem : '\n' ∉ line.toList
  character : ∃ (found : MappedText) (ch : Char),
    place.position.file.mapped.lines[place.position.line]? = some found ∧
      found[place.position.column]? = some ⟨[ch], some place.position⟩ ∧
      (found.chars = line.toList ∨ found.chars = line.toList ++ ['\n']) ∧
      (line.toList[place.offset - 1]? = some ch ∨ line.length = place.offset - 1 ∧ ch = '\n')

theorem Text.slice_from {α : Type} (xs : List α) (start : Nat) :
    slice xs start none = xs.drop start := by
  have hstop : clampBound xs.length (xs.length : Int) = xs.length := by simp [clampBound]
  have hstart : clampBound xs.length start = min start xs.length := by simp [clampBound]
  rw [slice, Option.getD_none, hstop, hstart, List.take_length]
  rcases Nat.le_total start xs.length with h | h
  · rw [Nat.min_eq_left h]
  · rw [Nat.min_eq_right h, List.drop_length, List.drop_of_length_le h]

theorem MappedText.getElem?_chars {text : MappedText} (hsingle : ∀ c ∈ text, c.IsSingle) {place : Nat}
    {c : MappedChar} {ch : Char} (hc : text[place]? = some c) (hglyph : c.glyph = [ch]) :
    text.chars[place]? = some ch := by
  obtain ⟨hlength, rfl⟩ := List.getElem?_eq_some_iff.mp hc
  have hdrop : text.chars.drop place = ch :: (chars (text.drop (place + 1))) := by
    rw [← chars_drop hsingle, List.drop_eq_getElem_cons hlength, chars_cons hglyph]
  rw [← Nat.add_zero place, ← List.getElem?_drop, hdrop]
  rfl

theorem MappedText.IsLineOf.piece_or_newline {line : MappedText} {piece : List Char}
    (h : line.IsLineOf piece) {place : Nat} {ch : Char} (hch : line.chars[place]? = some ch) :
    piece[place]? = some ch ∨ piece.length = place ∧ ch = '\n' := by
  rcases h.2 with hwhole | hended
  · rw [hwhole] at hch
    exact Or.inl hch
  · rw [hended, List.getElem?_append] at hch
    split at hch
    · exact Or.inl hch
    · rename_i hbehind
      obtain ⟨hlast, hnewline⟩ := List.getElem?_eq_some_iff.mp hch
      rw [List.length_singleton] at hlast
      rw [List.getElem_singleton] at hnewline
      exact Or.inr ⟨by omega, hnewline.symm⟩

theorem SourceFile.exists_lineText {file : SourceFile} {position : Position}
    (h : position ∈ file.mapped.origins) :
    position.file = file ∧ ∃ (found : MappedText) (ch : Char) (piece : List Char),
      file.mapped.lines[position.line]? = some found ∧
      found[position.column]? = some ⟨[ch], some position⟩ ∧
      (Text.splitLines file.text.toList)[position.line]? = some piece ∧ found.IsLineOf piece ∧
      (piece[position.column]? = some ch ∨ piece.length = position.column ∧ ch = '\n') := by
  obtain ⟨c, hc, hposition⟩ := List.mem_filterMap.mp h
  obtain ⟨own, found, horigin, hfile, hline, hcolumn⟩ := mem_lines hc
  obtain rfl : own = position := Option.some.inj (horigin.symm.trans hposition)
  have hsingle : ∀ c ∈ file.mapped, c.IsSingle := Position.isSingle_tag _ _
  obtain ⟨ch, hglyph⟩ := hsingle c hc
  obtain ⟨piece, hpiece, hends⟩ := MappedText.splitLines_of_lines hsingle hline
  have hchars : MappedText.chars file.mapped = file.text.toList := Position.chars_tag _ _
  have hinline : ∀ c ∈ found, c.IsSingle := fun c hc =>
    hsingle c (MappedText.mem_of_mem_lines (List.mem_of_getElem? hline) hc)
  have hshown := MappedText.getElem?_chars hinline hcolumn hglyph
  have hchar : c = ⟨[ch], some own⟩ := by rw [← hglyph, ← horigin]
  exact ⟨hfile, found, ch, piece, hline, hchar ▸ hcolumn, hchars ▸ hpiece, hends,
    hends.piece_or_newline hshown⟩

theorem SyntaxFault.place_eq (kind : SyntaxFaultKind) (offset : Nat) (source : MappedText) :
    (SyntaxFault.at kind offset source).place =
      (MappedText.originOnLine? (source.drop offset)).map fun position =>
        { position, line? := position.lineText? } := by
  rw [SyntaxFault.at, MappedText.slice, Text.slice_from]

theorem SyntaxFault.isShown_at_iff (kind : SyntaxFaultKind) (offset : Nat) (source : MappedText) :
    (SyntaxFault.at kind offset source).isShown = true ↔
      ∀ place ∈ (SyntaxFault.at kind offset source).place,
        place.position.lineText?.isSome = true := by
  rw [isShown, Option.all_eq_true, place_eq]
  cases MappedText.originOnLine? (source.drop offset) with
  | none => simp
  | some position => simp

/-- A fault in a text from files shows the line that the character at its place stands in. -/
theorem SyntaxFault.exists_genuine {kind : SyntaxFaultKind} {source : MappedText}
    (hfiles : source.FromFiles) {offset : Nat} {place : FaultPlace}
    (hplace : (SyntaxFault.at kind offset source).place = some place) : ∃ line, place.Genuine line := by
  rw [place_eq] at hplace
  obtain ⟨position, hshown, rfl⟩ := Option.map_eq_some_iff.mp hplace
  have hmem : position ∈ source.origins :=
    MappedText.mem_origins_of_shows (MappedText.originOnLine?_eq_some_iff.mp hshown)
  obtain ⟨-, found, ch, piece, hline, hcolumn, hpiece, ⟨hfree, hends⟩, hchar⟩ :=
    SourceFile.exists_lineText (hfiles position hmem)
  have hlineText : position.lineText? = some (String.ofList piece) := by
    rw [Position.lineText?, hpiece, Option.map_some]
  refine ⟨String.ofList piece, position.file.shownAs_shownName, rfl, rfl, hlineText, hlineText, ?_,
    found, ch, hline, hcolumn, ?_, ?_⟩ <;>
    simp only [String.toList_ofList, String.length_ofList, FaultPlace.offset, Nat.add_sub_cancel]
  · exact hfree
  · exact hends
  · exact hchar

theorem SyntaxFault.isShown_at (kind : SyntaxFaultKind) {source : MappedText}
    (hfiles : source.FromFiles) (offset : Nat) : (SyntaxFault.at kind offset source).isShown = true := by
  rw [isShown, Option.all_eq_true]
  intro place hplace
  obtain ⟨line, hgenuine⟩ := exists_genuine hfiles hplace
  rw [hgenuine.shown]
  rfl

/-- A fault is placed where locating the line and the column of its offset leads, and there it shows the
line of the file that the character there stands in. -/
theorem SyntaxFault.place_at (kind : SyntaxFaultKind) {source : MappedText}
    (hfiles : source.FromFiles) (offset : Nat) :
    (SyntaxFault.at kind offset source).place.map FaultPlace.position =
        locate source (source.lineAt offset) (source.columnAt offset) ∧
      ∀ place, (SyntaxFault.at kind offset source).place = some place →
        ∃ line, place.Genuine line := by
  refine ⟨?_, fun place => exists_genuine hfiles⟩
  rw [SyntaxFault.place_eq, Option.map_map]
  rcases Nat.lt_or_ge offset source.length with hinside | hbehind
  · rw [locate_place hinside]
    exact congrFun Option.map_id _
  · rw [locate_end hbehind, List.drop_of_length_le hbehind]
    rfl

def endedFile : SourceFile := { id := 0, name := some "a.js", text := "ab\n" }

def namelessFile : SourceFile := { id := 1, name := none, text := "c" }

/-- Text of two files, with text of nobody between and before them. -/
def stitched : MappedText :=
  .ofString "(" ++ namelessFile.mapped ++ .ofString "\n" ++ endedFile.mapped

theorem SyntaxFault.place_at_applied :
    stitched.FromFiles ∧
      (SyntaxFault.at .wrapperClosed 5 stitched).place = some ⟨⟨endedFile, 0, 2⟩, some "ab"⟩ ∧
      locate stitched 2 3 = some ⟨endedFile, 0, 2⟩ ∧
      FaultPlace.Genuine ⟨⟨endedFile, 0, 2⟩, some "ab"⟩ "ab" := by
  have hfiles : stitched.FromFiles := by
    unfold MappedText.FromFiles
    decide +kernel
  have hplace : (SyntaxFault.at .wrapperClosed 5 stitched).place =
      some ⟨⟨endedFile, 0, 2⟩, some "ab"⟩ := by decide +kernel
  have hline : stitched.lineAt 5 = 2 := by decide +kernel
  have hcolumn : stitched.columnAt 5 = 3 := by decide +kernel
  obtain ⟨hlocated, hgenuine⟩ := place_at .wrapperClosed hfiles 5
  rw [hline, hcolumn] at hlocated
  obtain ⟨line, hshows⟩ := hgenuine _ hplace
  obtain rfl : "ab" = line := Option.some.inj hshows.shown
  exact ⟨hfiles, hplace, hlocated.symm.trans (congrArg (Option.map FaultPlace.position) hplace),
    hshows⟩

end NotebookCell
