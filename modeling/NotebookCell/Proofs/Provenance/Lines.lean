import Mathlib.Data.List.SplitBy
import NotebookCell.Syntax.Fault

/-!
# Lines of mapped text

A text is cut behind each of its newlines, so that a newline belongs to the line it ends. In the text
of a file every character stands in the line and at the column that its position says, and the lines
are those of the file, as they are without their ends.
-/

namespace NotebookCell

namespace MappedText

def lines (text : MappedText) : List MappedText := text.splitBy fun c _ => !c.isNewline

theorem mem_of_mem_lines {text line : MappedText} (h : line ∈ text.lines) {c : MappedChar}
    (hc : c ∈ line) : c ∈ text := by
  rw [← List.flatten_splitBy (fun c _ => !c.isNewline) text]
  exact List.mem_flatten.mpr ⟨line, h, hc⟩

variable {c : MappedChar}

theorem lines_newline (hc : c.isNewline = true) (text : MappedText) :
    lines (c :: text) = [c] :: text.lines := by
  refine List.splitBy_append (l := [c]) ?_
  simp [hc]

theorem lines_cons (hc : c.isNewline = false) (text : MappedText) :
    lines (c :: text) = (c :: text.lines.headD []) :: text.lines.tail := by
  obtain ⟨hflat, hne, hrun, hends⟩ := List.splitBy_eq_iff.mp (rfl : text.lines = _)
  cases hlines : text.lines with
  | nil =>
    rw [hlines] at hflat
    rw [hflat]
    rfl
  | cons line others =>
    rw [hlines] at hflat hne hrun hends
    obtain ⟨hline, hothers⟩ := not_or.mp (List.mem_cons.not.mp hne)
    change lines (c :: text) = (c :: line) :: others
    refine List.splitBy_eq_iff.mpr ⟨congrArg (c :: ·) hflat, ?_, ?_, ?_⟩
    · exact not_or.mpr ⟨List.cons_ne_nil c line ∘ Eq.symm, hothers⟩ ∘ List.mem_cons.mp
    · intro run hmem
      rcases List.mem_cons.mp hmem with rfl | hmem
      · refine List.isChain_cons.mpr ⟨fun d _ => ?_, hrun line List.mem_cons_self⟩
        rw [hc, Bool.not_false]
      · exact hrun run (List.mem_cons_of_mem line hmem)
    · rw [List.isChain_cons] at hends ⊢
      refine ⟨fun next hnext => ?_, hends.2⟩
      obtain ⟨ha, hb, hcut⟩ := hends.1 next hnext
      exact ⟨List.cons_ne_nil c line, hb, by rw [List.getLast_cons ha]; exact hcut⟩

/-- The origin of the first tagged character of a line from a column on; line and column are counted
from zero. -/
def originFrom? (text : MappedText) (line column : Nat) : Option Position :=
  (text.lines[line]?).bind fun chars => (chars.drop column).findSome? MappedChar.origin

theorem originFrom?_newline (hc : c.isNewline = true) (text : MappedText) (line column : Nat) :
    originFrom? (c :: text) (line + 1) column = text.originFrom? line column := by
  rw [originFrom?, originFrom?, lines_newline hc, List.getElem?_cons_succ]

theorem originFrom?_behind_newline (hc : c.isNewline = true) (text : MappedText) (column : Nat) :
    originFrom? (c :: text) 0 (column + 1) = none := by
  rw [originFrom?, lines_newline hc]
  simp

theorem originFrom?_later (hc : c.isNewline = false) (text : MappedText) (line column : Nat) :
    originFrom? (c :: text) (line + 1) column = text.originFrom? (line + 1) column := by
  rw [originFrom?, originFrom?, lines_cons hc, List.getElem?_cons_succ, List.getElem?_tail]

theorem originFrom?_behind (hc : c.isNewline = false) (text : MappedText) (column : Nat) :
    originFrom? (c :: text) 0 (column + 1) = text.originFrom? 0 column := by
  rw [originFrom?, originFrom?, lines_cons hc]
  cases text.lines with
  | nil => simp
  | cons line others => rfl

theorem originFrom?_first (c : MappedChar) (text : MappedText) :
    originFrom? (c :: text) 0 0 =
      c.origin.or (if c.isNewline then none else text.originFrom? 0 0) := by
  cases hline : c.isNewline with
  | true =>
    rw [originFrom?, lines_newline hline]
    cases horigin : c.origin <;> simp [horigin]
  | false =>
    rw [originFrom?, originFrom?, lines_cons hline]
    cases horigin : c.origin <;> cases text.lines <;> simp [horigin]

theorem originOnLine?_eq (text : MappedText) : text.originOnLine? = text.originFrom? 0 0 := by
  induction text with
  | nil => rfl
  | cons c text ih =>
    rw [originOnLine?, originFrom?_first, ih]
    cases c.origin <;> rfl

end MappedText

/-! ### The lines of a file -/

theorem MappedChar.isNewline_of_glyph {c : MappedChar} {ch : Char} (h : c.glyph = [ch]) :
    c.isNewline = (ch == '\n') := by
  rw [isNewline, h]
  simp

theorem Text.splitLines_newline (rest : List Char) :
    splitLines ('\n' :: rest) = [] :: splitLines rest := by
  rw [splitLines, splitOnChar, if_pos rfl]
  rfl

theorem Text.splitLines_cons {c : Char} (hc : c ≠ '\n') (rest : List Char) :
    splitLines (c :: rest) = (c :: (splitLines rest).headD []) :: (splitLines rest).tail := by
  rw [splitLines, splitOnChar, if_neg hc]
  unfold splitLines
  split
  · rename_i hnil
    exact absurd hnil (splitOnChar_ne_nil '\n' rest)
  · rename_i piece pieces hpieces
    rw [hpieces]
    rfl

namespace MappedText

/-- The line is made of `piece` and of the newline that ends it, if there is one. -/
def IsLineOf (line : MappedText) (piece : List Char) : Prop :=
  '\n' ∉ piece ∧ (chars line = piece ∨ chars line = piece ++ ['\n'])

theorem IsLineOf.cons {line : MappedText} {piece : List Char} (h : line.IsLineOf piece)
    {c : MappedChar} {ch : Char} (hglyph : c.glyph = [ch]) (hother : ch ≠ '\n') :
    IsLineOf (c :: line) (ch :: piece) := by
  refine ⟨not_or.mpr ⟨hother.symm, h.1⟩ ∘ List.mem_cons.mp, ?_⟩
  rw [chars_cons hglyph]
  exact h.2.imp (congrArg (ch :: ·)) (congrArg (ch :: ·))

/-- The lines of a text go along with what stands between its line feeds. Behind a last line feed there
is no line, but an empty piece: so lines and pieces are compared as if both went on with empty ones. -/
theorem isLineOf_lines {text : MappedText} (hsingle : ∀ c ∈ text, c.IsSingle) :
    text.lines.length ≤ (Text.splitLines (chars text)).length ∧
      ∀ place, IsLineOf (text.lines.getD place []) ((Text.splitLines (chars text)).getD place []) := by
  induction text with
  | nil =>
    refine ⟨Nat.zero_le _, fun place => ?_⟩
    cases place <;> exact ⟨List.not_mem_nil, Or.inl rfl⟩
  | cons c text ih =>
    obtain ⟨ch, hglyph⟩ := hsingle c List.mem_cons_self
    obtain ⟨hlength, hlines⟩ := ih fun d hd => hsingle d (List.mem_cons_of_mem c hd)
    have hnewline := MappedChar.isNewline_of_glyph hglyph
    rw [chars_cons hglyph]
    by_cases hend : ch = '\n'
    · subst hend
      rw [lines_newline hnewline, Text.splitLines_newline]
      refine ⟨Nat.succ_le_succ hlength, fun place => ?_⟩
      cases place with
      | zero => exact ⟨List.not_mem_nil, Or.inr (chars_cons hglyph [])⟩
      | succ place => exact hlines place
    · rw [lines_cons (hnewline.trans (beq_eq_false_iff_ne.mpr hend)), Text.splitLines_cons hend]
      refine ⟨?_, fun place => ?_⟩
      · simp only [List.length_cons, List.length_tail]
        omega
      · cases place with
        | zero =>
          have hfirst := hlines 0
          simp only [← List.headD_eq_getD] at hfirst
          exact hfirst.cons hglyph hend
        | succ place =>
          have hlater := hlines (place + 1)
          simpa only [List.getD_eq_getElem?_getD, List.getElem?_cons_succ, List.getElem?_tail] using hlater

/-- A line of a text, without its end, is what stands there between two line feeds. -/
theorem splitLines_of_lines {text line : MappedText} (hsingle : ∀ c ∈ text, c.IsSingle)
    {place : Nat} (hline : text.lines[place]? = some line) :
    ∃ piece, (Text.splitLines (chars text))[place]? = some piece ∧ line.IsLineOf piece := by
  obtain ⟨hlength, hlines⟩ := isLineOf_lines hsingle
  obtain ⟨hplace, -⟩ := List.getElem?_eq_some_iff.mp hline
  have hpiece := List.getElem?_eq_getElem (Nat.lt_of_lt_of_le hplace hlength)
  have hshown := hlines place
  rw [List.getD_eq_getElem?_getD, List.getD_eq_getElem?_getD, hline, hpiece] at hshown
  exact ⟨_, hpiece, hshown⟩

end MappedText

theorem Position.mem_lines_tag {p : Position} {chars : List Char} {c : MappedChar}
    (h : c ∈ p.tag chars) :
    ∃ line column text, c.origin =
        some { p with line := p.line + line, column := (if line = 0 then p.column else 0) + column } ∧
      (MappedText.lines (p.tag chars))[line]? = some text ∧ text[column]? = some c := by
  induction chars generalizing p with
  | nil => cases h
  | cons ch rest ih =>
    have hnewline : (⟨[ch], some p⟩ : MappedChar).isNewline = (ch == '\n') :=
      MappedChar.isNewline_of_glyph rfl
    rw [tag] at h ⊢
    by_cases hend : ch = '\n'
    · have hnext : p.next ch = { p with line := p.line + 1, column := 0 } := if_pos hend
      rw [MappedText.lines_newline (by rw [hnewline, hend]; rfl)]
      rcases List.mem_cons.mp h with rfl | hmem
      · exact ⟨0, 0, _, rfl, rfl, rfl⟩
      · obtain ⟨line, column, text, horigin, hline, hcolumn⟩ := ih hmem
        refine ⟨line + 1, column, text, ?_, hline, hcolumn⟩
        rw [horigin, hnext]
        simp only [ite_self, Nat.add_one_ne_zero, if_false, Nat.add_right_comm, Nat.add_assoc]
    · have hnext : p.next ch = { p with column := p.column + 1 } := if_neg hend
      rw [MappedText.lines_cons (by rw [hnewline]; exact beq_eq_false_iff_ne.mpr hend)]
      rcases List.mem_cons.mp h with rfl | hmem
      · exact ⟨0, 0, _, rfl, rfl, rfl⟩
      · obtain ⟨line, column, text, horigin, hline, hcolumn⟩ := ih hmem
        rw [hnext] at horigin
        cases line with
        | zero =>
          refine ⟨0, column + 1, _, ?_, rfl, ?_⟩
          · rw [horigin]
            simp only [if_true, Nat.add_zero]
            rw [Nat.add_assoc, Nat.add_comm 1 column]
          · rw [List.headD_eq_head?_getD, List.head?_eq_getElem?, hline]
            exact hcolumn
        | succ line =>
          refine ⟨line + 1, column, text, horigin, ?_, hcolumn⟩
          rw [List.getElem?_cons_succ, List.getElem?_tail]
          exact hline

theorem Position.isSingle_tag (p : Position) (chars : List Char) : ∀ c ∈ p.tag chars, c.IsSingle := by
  induction chars generalizing p with
  | nil =>
    intro c hc
    cases hc
  | cons ch rest ih =>
    intro c hc
    rcases List.mem_cons.mp hc with rfl | hc
    · exact ⟨ch, rfl⟩
    · exact ih (p.next ch) c hc

theorem SourceFile.mem_lines {file : SourceFile} {c : MappedChar} (h : c ∈ file.mapped) :
    ∃ position text, c.origin = some position ∧ position.file = file ∧
      file.mapped.lines[position.line]? = some text ∧ text[position.column]? = some c := by
  obtain ⟨line, column, text, horigin, hline, hcolumn⟩ := Position.mem_lines_tag h
  simp only [Nat.zero_add, ite_self] at horigin
  exact ⟨_, text, horigin, rfl, hline, hcolumn⟩

end NotebookCell
