import NotebookCell.Text.Lines

/-!
# Pieces of a text

Cutting a text at a character and joining pieces are the list operations `splitOn` and `intercalate`,
so what holds of those holds here.
-/

namespace NotebookCell.Text

theorem splitOnChar_eq_splitOn (sep : Char) (text : List Char) :
    splitOnChar sep text = text.splitOn sep := by
  induction text with
  | nil => rfl
  | cons c rest ih =>
    rw [splitOnChar, ih, List.splitOn, List.splitOn, List.splitOnP_cons_eq_if_modifyHead]
    by_cases hc : c = sep
    · rw [if_pos hc, if_pos (beq_iff_eq.mpr hc)]
    · rw [if_neg hc, if_neg (fun h => hc (beq_iff_eq.mp h))]
      cases hrest : List.splitOnP (fun c => c == sep) rest with
      | nil => exact absurd hrest (List.splitOnP_ne_nil _ rest)
      | cons piece pieces => rfl

theorem joinWith_cons_cons {α : Type} (sep piece next : List α) (pieces : List (List α)) :
    joinWith sep (piece :: next :: pieces) = piece ++ sep ++ joinWith sep (next :: pieces) := rfl

theorem joinWith_eq_intercalate {α : Type} (sep : List α) (pieces : List (List α)) :
    joinWith sep pieces = sep.intercalate pieces := by
  induction pieces with
  | nil => rfl
  | cons piece pieces ih =>
    cases pieces with
    | nil => exact List.intercalate_singleton.symm
    | cons next pieces => rw [joinWith_cons_cons, List.intercalate_cons_cons, ih]

theorem splitOnChar_of_not_mem {sep : Char} {text : List Char} (h : sep ∉ text) :
    splitOnChar sep text = [text] := by
  induction text with
  | nil => rfl
  | cons c rest ih =>
    rw [List.mem_cons, not_or] at h
    rw [splitOnChar, if_neg (Ne.symm h.1), ih h.2]

theorem not_mem_of_mem_splitOnChar {sep : Char} {text piece : List Char}
    (h : piece ∈ splitOnChar sep text) : sep ∉ piece := by
  induction text generalizing piece with
  | nil =>
    rw [splitOnChar, List.mem_singleton] at h
    rw [h]
    exact List.not_mem_nil
  | cons c rest ih =>
    rw [splitOnChar] at h
    split at h
    · rcases List.mem_cons.mp h with rfl | h
      · exact List.not_mem_nil
      · exact ih h
    · rename_i hc
      cases hpieces : splitOnChar sep rest with
      | nil => exact absurd hpieces (splitOnChar_ne_nil sep rest)
      | cons first pieces =>
        rw [hpieces] at h ih
        rcases List.mem_cons.mp h with rfl | h
        · rw [List.mem_cons, not_or]
          exact ⟨fun hsep => hc hsep.symm, ih List.mem_cons_self⟩
        · exact ih (List.mem_cons_of_mem first h)

/-- Cutting at the separator undoes the join of pieces that do not hold it. -/
theorem splitOnChar_joinWith {sep : Char} {pieces : List (List Char)} (hne : pieces ≠ [])
    (hpieces : ∀ piece ∈ pieces, sep ∉ piece) :
    splitOnChar sep (joinWith [sep] pieces) = pieces := by
  rw [splitOnChar_eq_splitOn, joinWith_eq_intercalate]
  exact List.splitOn_intercalate sep hpieces hne

theorem mem_joinWith {α : Type} {a : α} {sep : List α} {pieces : List (List α)}
    (h : a ∈ joinWith sep pieces) : a ∈ sep ∨ ∃ piece ∈ pieces, a ∈ piece := by
  rw [joinWith_eq_intercalate] at h
  induction pieces with
  | nil => cases h
  | cons piece pieces ih =>
    cases pieces with
    | nil =>
      rw [List.intercalate_singleton] at h
      exact Or.inr ⟨piece, List.mem_cons_self, h⟩
    | cons next pieces =>
      rw [List.intercalate_cons_cons, List.mem_append, List.mem_append] at h
      rcases h with (h | h) | h
      · exact Or.inr ⟨piece, List.mem_cons_self, h⟩
      · exact Or.inl h
      · rcases ih h with h | ⟨held, hheld, h⟩
        · exact Or.inl h
        · exact Or.inr ⟨held, List.mem_cons_of_mem piece hheld, h⟩

theorem joinWith_ne_nil {α : Type} {sep : List α} {pieces : List (List α)} (hne : pieces ≠ [])
    (hpieces : ∀ piece ∈ pieces, piece ≠ []) : joinWith sep pieces ≠ [] := by
  cases pieces with
  | nil => exact absurd rfl hne
  | cons piece pieces =>
    have hpiece : piece ≠ [] := hpieces piece List.mem_cons_self
    cases pieces with
    | nil => exact hpiece
    | cons next pieces =>
      rw [joinWith_cons_cons, List.append_assoc]
      exact List.append_ne_nil_of_left_ne_nil hpiece _

end NotebookCell.Text
