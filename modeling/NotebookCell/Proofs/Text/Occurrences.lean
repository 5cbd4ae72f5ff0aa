import Mathlib.Data.List.Infix
import NotebookCell.Provenance.Split

/-!
# Occurrences of a word

The leftmost occurrences of a word that do not overlap: each is the first one at or behind the end of the
one before. The search for them ends by itself, and a text that is cut at them falls into the pieces that
reading it character by character gives.
-/

namespace NotebookCell.Text

/-- The word stands in the text at a place. -/
def StandsAt (word text : List Char) (place : Nat) : Prop := word <+: text.drop place

/-- The word is first met at a place when the text is searched from `start` on. -/
structure FirstAt (word text : List Char) (start place : Nat) : Prop where
  le : start ≤ place
  stands : StandsAt word text place
  first : ∀ other, start ≤ other → other < place → ¬ StandsAt word text other

/-- The places of the leftmost occurrences from `start` on. Behind the last one there is no other. -/
inductive Leftmost (word text : List Char) : Nat → List Nat → Prop where
  | done {start : Nat} (h : ∀ place, start ≤ place → ¬ StandsAt word text place) :
    Leftmost word text start []
  | next {start place : Nat} {places : List Nat} (h : FirstAt word text start place)
    (rest : Leftmost word text (place + word.length) places) :
    Leftmost word text start (place :: places)

/-- The pieces of a text between the occurrences of a word. The text is read character by character;
`skip` characters of an occurrence are still to come. -/
def splitOnWordFrom (word : List Char) : Nat → List Char → List (List Char)
  | _, [] => [[]]
  | skip + 1, _ :: rest => splitOnWordFrom word skip rest
  | 0, c :: rest =>
    if word <+: c :: rest then [] :: splitOnWordFrom word (word.length - 1) rest
    else (splitOnWordFrom word 0 rest).modifyHead (c :: ·)

def splitOnWord (word text : List Char) : List (List Char) := splitOnWordFrom word 0 text

variable {word text : List Char} {start place : Nat} {places : List Nat}

/-! ### Searching -/

theorem StandsAt.add_length_le (h : StandsAt word text place) (hword : word ≠ []) :
    place + word.length ≤ text.length := by
  have hlength := h.length_le
  have hpos := List.length_pos_iff.mpr hword
  rw [List.length_drop] at hlength
  omega

theorem FirstAt.unique {other : Nat} (h : FirstAt word text start place)
    (h' : FirstAt word text start other) : place = other := by
  rcases Nat.lt_trichotomy place other with hlt | heq | hlt
  · exact absurd h.stands (h'.first place h.le hlt)
  · exact heq
  · exact absurd h'.stands (h.first other h'.le hlt)

theorem findFrom_cases (word text : List Char) (place : Nat) :
    (findFrom word place text = none ∧ ∀ step, ¬ StandsAt word text step) ∨
      ∃ step, findFrom word place text = some (place + step) ∧ FirstAt word text 0 step := by
  induction text generalizing place with
  | nil =>
    cases word with
    | nil =>
      exact Or.inr ⟨0, rfl, Nat.le_refl 0, List.nil_prefix, fun _ _ h => absurd h (Nat.not_lt_zero _)⟩
    | cons c word =>
      refine Or.inl ⟨rfl, fun step h => ?_⟩
      rw [StandsAt, List.drop_nil] at h
      exact List.cons_ne_nil c word (List.prefix_nil.mp h)
  | cons c rest ih =>
    rw [findFrom]
    by_cases hhere : word <+: c :: rest
    · rw [if_pos (List.isPrefixOf_iff_prefix.mpr hhere)]
      exact Or.inr ⟨0, rfl, Nat.le_refl 0, hhere, fun _ _ h => absurd h (Nat.not_lt_zero _)⟩
    · rw [if_neg (mt List.isPrefixOf_iff_prefix.mp hhere)]
      rcases ih (place + 1) with ⟨hnone, hno⟩ | ⟨step, hsome, hfirst⟩
      · refine Or.inl ⟨hnone, fun step h => ?_⟩
        cases step with
        | zero => exact hhere h
        | succ step => exact hno step h
      · refine Or.inr ⟨step + 1, by rw [hsome, Nat.add_assoc, Nat.add_comm 1], Nat.zero_le _,
          hfirst.stands, fun other _ hlt h => ?_⟩
        cases other with
        | zero => exact hhere h
        | succ other => exact hfirst.first other (Nat.zero_le _) (Nat.lt_of_succ_lt_succ hlt) h

theorem findAt_cases (hword : word ≠ []) (text : List Char) (start : Nat) :
    (findAt word text start = none ∧ ∀ place, start ≤ place → ¬ StandsAt word text place) ∨
      ∃ place, findAt word text start = some place ∧ FirstAt word text start place := by
  have hshift : ∀ step, StandsAt word (text.drop start) step ↔ StandsAt word text (start + step) := by
    intro step
    rw [StandsAt, StandsAt, List.drop_drop]
  rw [findAt]
  split
  · rcases findFrom_cases word (text.drop start) start with ⟨hnone, hno⟩ | ⟨step, hsome, hfirst⟩
    · refine Or.inl ⟨hnone, fun place hle h => ?_⟩
      obtain ⟨step, rfl⟩ := Nat.exists_eq_add_of_le hle
      exact hno step ((hshift step).mpr h)
    · refine Or.inr ⟨start + step, hsome, Nat.le_add_right start step, (hshift step).mp hfirst.stands,
        fun other hle hlt h => ?_⟩
      obtain ⟨earlier, rfl⟩ := Nat.exists_eq_add_of_le hle
      exact hfirst.first earlier (Nat.zero_le _) (by omega) ((hshift earlier).mpr h)
  · refine Or.inl ⟨rfl, fun place hle h => ?_⟩
    have hin := h.add_length_le hword
    omega

/-! ### All occurrences -/

theorem exists_leftmost (hword : word ≠ []) (text : List Char) (start : Nat) :
    ∃ places, Leftmost word text start places := by
  -- the rest of the text behind an occurrence is shorter
  induction hrest : text.length - start using Nat.strongRecOn generalizing start with
  | ind size ih =>
    rcases findAt_cases hword text start with ⟨-, hno⟩ | ⟨place, -, hfirst⟩
    · exact ⟨[], .done hno⟩
    · have hin := hfirst.stands.add_length_le hword
      have hpos := List.length_pos_iff.mpr hword
      have hle := hfirst.le
      obtain ⟨places, hplaces⟩ := ih (text.length - (place + word.length)) (by omega)
        (place + word.length) rfl
      exact ⟨place :: places, .next hfirst hplaces⟩

theorem Leftmost.length_le (h : Leftmost word text start places) (hword : word ≠ []) :
    places.length ≤ text.length - start := by
  induction h with
  | done _ => exact Nat.zero_le _
  | @next start place places hfirst _ ih =>
    have hin := hfirst.stands.add_length_le hword
    have hpos := List.length_pos_iff.mpr hword
    have hle := hfirst.le
    rw [List.length_cons]
    omega

/-- The search finds these places and then ends by itself: more rounds find nothing more. -/
theorem Leftmost.occurrences_eq (h : Leftmost word text start places) (hword : word ≠ []) {fuel : Nat}
    (hfuel : places.length < fuel) : occurrences word text fuel start = places := by
  induction h generalizing fuel with
  | done hno =>
    obtain ⟨fuel, rfl⟩ := Nat.exists_eq_succ_of_ne_zero (Nat.ne_of_gt hfuel)
    rw [occurrences]
    rcases findAt_cases hword text _ with ⟨hnone, -⟩ | ⟨place, -, hfirst⟩
    · rw [hnone]
    · exact absurd hfirst.stands (hno place hfirst.le)
  | @next start place places hfirst _ ih =>
    obtain ⟨fuel, rfl⟩ := Nat.exists_eq_succ_of_ne_zero (Nat.ne_of_gt (Nat.zero_lt_of_lt hfuel))
    rw [occurrences]
    rcases findAt_cases hword text start with ⟨-, hno⟩ | ⟨found, hfound, hfirst'⟩
    · exact absurd hfirst.stands (hno place hfirst.le)
    · obtain rfl := hfirst.unique hfirst'
      rw [hfound]
      exact congrArg (place :: ·) (ih (Nat.lt_of_succ_lt_succ hfuel))

theorem not_infix_of_not_standsAt (hword : word ≠ []) {lo hi : Nat}
    (h : ∀ place, lo ≤ place → place < hi → ¬ StandsAt word text place) :
    ¬ word <:+: (text.take hi).drop lo := by
  rintro ⟨before, after, hparts⟩
  have hpos := List.length_pos_iff.mpr hword
  have hsize := congrArg List.length hparts
  simp only [List.length_append, List.length_drop, List.length_take] at hsize
  apply h (lo + before.length) (Nat.le_add_right _ _) (by omega)
  have hdrop : (text.take hi).drop (lo + before.length) = word ++ after := by
    rw [← List.drop_drop, ← hparts, List.append_assoc, List.drop_left]
  exact (List.prefix_append word after).trans (hdrop ▸ (List.take_prefix hi text).drop _)

/-! ### Reading character by character -/

theorem splitOnWordFrom_skip (front rest : List Char) :
    splitOnWordFrom word front.length (front ++ rest) = splitOnWordFrom word 0 rest := by
  induction front with
  | nil => rfl
  | cons c front ih => exact ih

theorem splitOnWordFrom_word (hword : word ≠ []) (rest : List Char) :
    splitOnWordFrom word 0 (word ++ rest) = [] :: splitOnWordFrom word 0 rest := by
  cases word with
  | nil => exact absurd rfl hword
  | cons c tail =>
    rw [List.cons_append, splitOnWordFrom, ← List.cons_append, if_pos (List.prefix_append _ _),
      List.length_cons, Nat.add_sub_cancel, splitOnWordFrom_skip]

/-- What stands before the first occurrence belongs to the first piece. -/
theorem splitOnWordFrom_front {front rest : List Char}
    (h : ∀ place < front.length, ¬ StandsAt word (front ++ rest) place) :
    splitOnWordFrom word 0 (front ++ rest) = (splitOnWordFrom word 0 rest).modifyHead (front ++ ·) := by
  induction front with
  | nil => exact (congrFun List.modifyHead_id _).symm
  | cons c front ih =>
    have hhere : ¬ word <+: c :: (front ++ rest) := h 0 (Nat.succ_pos _)
    have hlater : ∀ place < front.length, ¬ StandsAt word (front ++ rest) place :=
      fun place hlt => h (place + 1) (Nat.succ_lt_succ hlt)
    rw [List.cons_append, splitOnWordFrom, if_neg hhere, ih hlater, List.modifyHead_modifyHead]
    rfl

end NotebookCell.Text
