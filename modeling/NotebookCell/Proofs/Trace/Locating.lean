import NotebookCell.Proofs.Provenance.Lines
import NotebookCell.Proofs.Provenance.Marks
import NotebookCell.Trace.Locate

/-!
# Locating line by line

Locating a line and a column is looking that line up and going through it from the column on: the
first tagged character answers. Where there is no such line or column, or no such character, there is
no answer.
-/

namespace NotebookCell

/-- The origin of the first tagged character of line `line` at `column` or behind it, both counted
from one. -/
def MappedText.originAt? (text : MappedText) (line column : Int) : Option Position :=
  if 1 ≤ line ∧ 1 ≤ column then text.originFrom? (line - 1).toNat (column - 1).toNat else none

theorem locateFrom_passed {line atLine : Int} (h : line < atLine) (column atColumn : Int)
    (text : MappedText) : locateFrom line column atLine atColumn text = none := by
  cases text with
  | nil => rfl
  | cons c rest =>
    have hother : ¬(atLine = line ∧ atColumn = column) := by omega
    rw [locateFrom, if_neg hother, if_pos h]

theorem locateFrom_before {column atColumn : Int} (h : column < 1) (hcolumn : 1 ≤ atColumn)
    (line atLine : Int) (text : MappedText) :
    locateFrom line column atLine atColumn text = none := by
  induction text generalizing atLine atColumn with
  | nil => rfl
  | cons c rest ih =>
    have hother : ¬(atLine = line ∧ atColumn = column) := by omega
    rw [locateFrom, if_neg hother, ih (Int.le_refl 1), ih (by omega), ite_self, ite_self]

theorem locateFrom_sameLine (text : MappedText) (column : Nat) (atLine atColumn : Int) :
    locateFrom atLine (atColumn + column) atLine atColumn text = text.originFrom? 0 column := by
  induction text generalizing column atColumn with
  | nil => rfl
  | cons c rest ih =>
    cases column with
    | zero => rw [locateFrom, if_pos ⟨rfl, by omega⟩, MappedText.originOnLine?_eq]
    | succ column =>
      have hother : ¬(atLine = atLine ∧ atColumn = atColumn + (column + 1 : Nat)) := by omega
      rw [locateFrom, if_neg hother, if_neg (Int.lt_irrefl atLine)]
      cases hc : c.isNewline with
      | true =>
        have hpassed := locateFrom_passed (Int.lt_add_one_of_le (Int.le_refl atLine))
          (atColumn + (column + 1 : Nat)) 1 rest
        rw [if_pos rfl, hpassed, MappedText.originFrom?_behind_newline hc]
      | false =>
        have hcolumn : atColumn + (column + 1 : Nat) = atColumn + 1 + column := by omega
        rw [if_neg Bool.false_ne_true, MappedText.originFrom?_behind hc, hcolumn]
        exact ih column (atColumn + 1)

theorem locateFrom_laterLine (text : MappedText) (line column : Nat) (atLine atColumn : Int) :
    locateFrom (atLine + 1 + line) (1 + column) atLine atColumn text =
      text.originFrom? (line + 1) column := by
  induction text generalizing line atLine atColumn with
  | nil => rfl
  | cons c rest ih =>
    have hother : ¬(atLine = atLine + 1 + line ∧ atColumn = 1 + column) := by omega
    have hahead : ¬atLine + 1 + line < atLine := by omega
    rw [locateFrom, if_neg hother, if_neg hahead]
    cases hc : c.isNewline with
    | true =>
      rw [if_pos rfl, MappedText.originFrom?_newline hc]
      cases line with
      | zero =>
        have hline : atLine + 1 + (0 : Nat) = atLine + 1 := by omega
        rw [hline]
        exact locateFrom_sameLine rest column (atLine + 1) 1
      | succ line =>
        have hline : atLine + 1 + (line + 1 : Nat) = atLine + 1 + 1 + line := by omega
        rw [hline]
        exact ih line (atLine + 1) 1
    | false =>
      rw [if_neg Bool.false_ne_true, MappedText.originFrom?_later hc]
      exact ih line atLine (atColumn + 1)

theorem locate_eq_originAt? (source : MappedText) (line column : Int) :
    locate source line column = source.originAt? line column := by
  unfold locate MappedText.originAt?
  split
  · rename_i hplace
    obtain ⟨l, rfl⟩ := Int.exists_add_of_le hplace.1
    obtain ⟨k, rfl⟩ := Int.exists_add_of_le hplace.2
    have hl : (1 + (l : Int) - 1).toNat = l := by omega
    have hk : (1 + (k : Int) - 1).toNat = k := by omega
    rw [hl, hk]
    cases l with
    | zero => exact locateFrom_sameLine source k 1 1
    | succ l =>
      have hline : (1 : Int) + (l + 1 : Nat) = 1 + 1 + l := by omega
      rw [hline]
      exact locateFrom_laterLine source l k 1 1
  · rename_i hplace
    rcases Int.lt_or_le line 1 with hline | hline
    · exact locateFrom_passed hline column 1 source
    · exact locateFrom_before (by omega) (Int.le_refl 1) line 1 source

theorem MappedText.mem_line_of_originAt? {text : MappedText} {line column : Int} {origin : Position}
    (h : text.originAt? line column = some origin) :
    ∃ found : MappedText, text.lines[(line - 1).toNat]? = some found ∧ origin ∈ found.origins := by
  unfold originAt? originFrom? at h
  split at h
  · obtain ⟨found, hline, hfirst⟩ := Option.bind_eq_some_iff.mp h
    obtain ⟨c, hc, horigin⟩ := List.exists_of_findSome?_eq_some hfirst
    exact ⟨found, hline, List.mem_filterMap.mpr ⟨c, List.mem_of_mem_drop hc, horigin⟩⟩
  · cases h

theorem MappedText.originAt?_of_line {text found : MappedText} {position : Position} {c : MappedChar}
    (hline : text.lines[position.line]? = some found) (hcolumn : found[position.column]? = some c)
    (horigin : c.origin = some position) :
    text.originAt? (position.line + 1) (position.column + 1) = some position := by
  have hplace : (1 : Int) ≤ position.line + 1 ∧ (1 : Int) ≤ position.column + 1 := by omega
  rw [originAt?, if_pos hplace, Int.add_sub_cancel, Int.add_sub_cancel, Int.toNat_natCast,
    Int.toNat_natCast, originFrom?, hline, Option.bind_some]
  obtain ⟨hlength, hget⟩ := List.getElem?_eq_some_iff.mp hcolumn
  rw [List.drop_eq_getElem_cons hlength, hget, List.findSome?_cons, horigin]

/-- Locating goes by lines: the answer is the origin of the first tagged character of the line, from
the column on, and so it never comes from another line. A character of a file is found at its own line
and column. -/
theorem locate_by_lines :
    (∀ (source : MappedText) (line column : Int),
      locate source line column = source.originAt? line column ∧
      ∀ origin, locate source line column = some origin →
        ∃ found : MappedText, source.lines[(line - 1).toNat]? = some found ∧
          origin ∈ found.origins) ∧
    ∀ (file : SourceFile), ∀ c ∈ file.mapped, ∃ position, c.origin = some position ∧
      locate file.mapped (position.line + 1) (position.column + 1) = some position := by
  refine ⟨fun source line column => ⟨locate_eq_originAt? source line column, fun origin h => ?_⟩,
    fun file c hc => ?_⟩
  · rw [locate_eq_originAt?] at h
    exact MappedText.mem_line_of_originAt? h
  · obtain ⟨position, found, horigin, -, hline, hcolumn⟩ := SourceFile.mem_lines hc
    refine ⟨position, horigin, ?_⟩
    rw [locate_eq_originAt?]
    exact MappedText.originAt?_of_line hline hcolumn horigin

def twoLines : SourceFile := { id := 0, name := none, text := "a\nb" }

def bracketed : MappedText := .ofString "(" ++ twoLines.mapped

theorem locate_by_lines_applied :
    locate bracketed 1 1 = some ⟨twoLines, 0, 0⟩ ∧
      (∃ found : MappedText, bracketed.lines[((1 : Int) - 1).toNat]? = some found ∧
        ⟨twoLines, 0, 0⟩ ∈ found.origins) ∧
      ∃ c ∈ twoLines.mapped, ∃ position, c.origin = some position ∧
        locate twoLines.mapped (position.line + 1) (position.column + 1) = some position := by
  obtain ⟨hplace, hline⟩ := locate_by_lines.1 bracketed 1 1
  have hfound : locate bracketed 1 1 = some ⟨twoLines, 0, 0⟩ := hplace.trans (by decide +kernel)
  have hlast : (⟨['b'], some ⟨twoLines, 1, 0⟩⟩ : MappedChar) ∈ twoLines.mapped := by decide +kernel
  exact ⟨hfound, hline _ hfound, _, hlast, locate_by_lines.2 twoLines _ hlast⟩

end NotebookCell
