import NotebookCell.Proofs.Provenance.Lines
import NotebookCell.Proofs.Syntax.Layout
import NotebookCell.Proofs.Text.Occurrences

/-!
# Splitting mapped text

The pieces of a split text and what was cut out between them, taken in turns, are the characters of the
text with their origins. The pieces show what splitting the bare text gives.
-/

namespace NotebookCell

namespace MappedText

/-- What stands at some places, `width` characters each. -/
def standing (text : MappedText) (width : Nat) (places : List Nat) : List MappedText :=
  places.map fun place => (text.drop place).take width

/-- The pieces with what was found between each two of them. -/
def interleaved (pieces found : List MappedText) : MappedText :=
  (List.zipWith (· ++ ·) pieces (found ++ [[]])).flatten

/-- The text is cut at the leftmost occurrences of the separator, which are at these places. -/
structure CutAtWord (text : MappedText) (separator : List Char) (places : List Nat) : Prop where
  leftmost : Text.Leftmost separator text.chars 0 places
  /-- The search ends by itself, after one round for each occurrence and one that finds nothing. -/
  ends : ∀ rounds, places.length < rounds → occurrences separator text.chars rounds 0 = places
  length : (text.split separator).length = places.length + 1
  whole : interleaved (text.split separator) (text.standing separator.length places) = text
  shown : ∀ found ∈ text.standing separator.length places, found.chars = separator
  free : ∀ piece ∈ text.split separator, ¬ separator <:+: piece.chars
  texts : (text.split separator).map chars = Text.splitOnWord separator text.chars
  joined : Text.joinWith separator ((text.split separator).map chars) = text.chars

section Cutting

variable {text : MappedText} {word : List Char} {start place : Nat} {places : List Nat}

theorem drop_eq_append {α : Type} (items : List α) {lo hi : Nat} (h : lo ≤ hi) :
    items.drop lo = (items.take hi).drop lo ++ items.drop hi := by
  have hcut := List.take_append_drop (hi - lo) (items.drop lo)
  rw [List.drop_drop, Nat.add_sub_cancel' h, ← List.drop_take] at hcut
  exact hcut.symm

theorem length_cutAt (text : MappedText) (width start : Nat) (places : List Nat) :
    (cutAt text width start places).length = places.length + 1 := by
  induction places generalizing start with
  | nil => rfl
  | cons place places ih => rw [cutAt, List.length_cons, ih, List.length_cons]

theorem interleaved_cons (piece found : MappedText) (pieces rest : List MappedText) :
    interleaved (piece :: pieces) (found :: rest) = piece ++ found ++ interleaved pieces rest := rfl

theorem interleaved_cutAt (h : Text.Leftmost word text.chars start places) :
    interleaved (cutAt text word.length start places) (text.standing word.length places) =
      text.drop start := by
  induction h with
  | done _ => simp [cutAt, standing, interleaved]
  | @next start place places hfirst _ ih =>
    have hfound : (text.drop place).take word.length ++ text.drop (place + word.length) =
        text.drop place := by
      rw [← List.drop_drop, List.take_append_drop]
    have hcons : text.standing word.length (place :: places) =
        (text.drop place).take word.length :: text.standing word.length places := rfl
    rw [cutAt, hcons, interleaved_cons, ih, List.append_assoc, hfound,
      ← drop_eq_append text hfirst.le]

theorem chars_interleaved {pieces found : List MappedText} (hfound : ∀ part ∈ found, part.chars = word)
    (hlength : pieces.length = found.length + 1) :
    (interleaved pieces found).chars = Text.joinWith word (pieces.map chars) := by
  induction found generalizing pieces with
  | nil =>
    obtain ⟨piece, rfl⟩ := List.length_eq_one_iff.mp hlength
    simp [interleaved, Text.joinWith]
  | cons part found ih =>
    have hrest : ∀ other ∈ found, other.chars = word :=
      fun other h => hfound other (List.mem_cons_of_mem part h)
    -- more than one piece is left, for there is a part between the first two
    rcases pieces with _ | ⟨piece, _ | ⟨next, pieces⟩⟩
    · cases hlength
    · cases hlength
    · rw [interleaved_cons, chars_append, chars_append, hfound part List.mem_cons_self,
        ih hrest (Nat.succ.inj hlength)]
      rfl

variable (hsingle : ∀ c ∈ text, c.IsSingle)

include hsingle

theorem chars_standing (h : Text.Leftmost word text.chars start places) :
    ∀ found ∈ text.standing word.length places, found.chars = word := by
  induction h with
  | done _ =>
    intro found hfound
    cases hfound
  | @next start place places hfirst _ ih =>
    intro found hfound
    rcases List.mem_cons.mp hfound with rfl | hfound
    · rw [chars_take fun c hc => hsingle c (List.mem_of_mem_drop hc), chars_drop hsingle]
      exact (List.prefix_iff_eq_take.mp hfirst.stands).symm
    · exact ih found hfound

theorem not_infix_cutAt (hword : word ≠ []) (h : Text.Leftmost word text.chars start places) :
    ∀ piece ∈ cutAt text word.length start places, ¬ word <:+: piece.chars := by
  induction h with
  | @done start hno =>
    intro piece hpiece
    rw [List.mem_singleton.mp hpiece, chars_drop hsingle, ← List.take_length (l := text.chars)]
    exact Text.not_infix_of_not_standsAt hword fun place hle _ => hno place hle
  | @next start place places hfirst _ ih =>
    intro piece hpiece
    rcases List.mem_cons.mp hpiece with rfl | hpiece
    · rw [← segment, chars_segment hsingle]
      exact Text.not_infix_of_not_standsAt hword hfirst.first
    · exact ih piece hpiece

theorem texts_cutAt (hword : word ≠ []) (h : Text.Leftmost word text.chars start places) :
    (cutAt text word.length start places).map chars =
      Text.splitOnWordFrom word 0 (text.chars.drop start) := by
  induction h with
  | @done start hno =>
    have hfree : ∀ place < (text.chars.drop start).length,
        ¬ Text.StandsAt word (text.chars.drop start ++ []) place := by
      intro place _ hstands
      rw [List.append_nil, Text.StandsAt, List.drop_drop] at hstands
      exact hno (start + place) (Nat.le_add_right _ _) hstands
    have hread := Text.splitOnWordFrom_front hfree
    rw [List.append_nil] at hread
    rw [hread, cutAt, List.map_singleton, chars_drop hsingle, Text.splitOnWordFrom,
      List.modifyHead_cons, List.append_nil]
  | @next start place places hfirst _ ih =>
    have hbehind : text.chars.drop place = word ++ text.chars.drop (place + word.length) := by
      rw [← List.drop_drop]
      exact (List.prefix_iff_eq_append.mp hfirst.stands).symm
    have hrest := drop_eq_append text.chars hfirst.le
    have hfree : ∀ step < ((text.chars.take place).drop start).length,
        ¬ Text.StandsAt word ((text.chars.take place).drop start ++ text.chars.drop place) step := by
      intro step hstep hstands
      rw [← hrest, Text.StandsAt, List.drop_drop] at hstands
      rw [List.length_drop, List.length_take] at hstep
      exact hfirst.first (start + step) (Nat.le_add_right _ _) (by omega) hstands
    rw [hrest, Text.splitOnWordFrom_front hfree, hbehind, Text.splitOnWordFrom_word hword, ← ih, cutAt,
      List.map_cons, ← segment, chars_segment hsingle, List.modifyHead_cons, List.append_nil]

end Cutting

/-- An empty separator takes the text apart character by character. Every other one cuts it at its leftmost
occurrences, so that no piece holds it and pieces and occurrences in turns are the text. -/
theorem split_partitions (text : MappedText) :
    (text.split [] = text.map (fun c => [c]) ∧ (text.split []).flatten = text) ∧
      ((∀ c ∈ text, c.IsSingle) → ∀ separator ≠ [],
        ∃ places, text.CutAtWord separator places) := by
  refine ⟨⟨rfl, ?_⟩, fun hsingle separator hword => ?_⟩
  · change (text.map fun c => [c]).flatten = text
    rw [← List.flatMap_def, List.flatMap_singleton']
  · obtain ⟨places, hplaces⟩ := Text.exists_leftmost hword text.chars 0
    have hrounds : places.length < text.chars.length + 1 :=
      Nat.lt_succ_of_le (hplaces.length_le hword)
    have hsplit : text.split separator = cutAt text separator.length 0 places := by
      rw [split, if_neg (mt List.isEmpty_iff.mp hword)]
      exact congrArg (cutAt text separator.length 0) (hplaces.occurrences_eq hword hrounds)
    have hlength : (text.split separator).length = places.length + 1 := by
      rw [hsplit, length_cutAt]
    have hwhole : interleaved (text.split separator) (text.standing separator.length places) = text := by
      rw [hsplit, interleaved_cutAt hplaces, List.drop_zero]
    have hshown := chars_standing hsingle hplaces
    refine ⟨places, hplaces, fun _ => hplaces.occurrences_eq hword, hlength, hwhole, hshown, ?_, ?_, ?_⟩
    · rw [hsplit]
      exact not_infix_cutAt hsingle hword hplaces
    · rw [hsplit, texts_cutAt hsingle hword hplaces, List.drop_zero]
      rfl
    · have hlength' : (text.split separator).length =
          (text.standing separator.length places).length + 1 := by
        rw [hlength, standing, List.length_map]
      rw [← chars_interleaved hshown hlength', hwhole]

/-- A text with text of nobody in the middle, in which the separator overlaps itself. -/
def overlapping : MappedText :=
  SourceFile.mapped { id := 0, name := none, text := "aaab" } ++ .ofString "aa"

theorem split_partitions_applied :
    (∀ c ∈ overlapping, c.IsSingle) ∧
      overlapping.split ['a', 'a'] = [[], (overlapping.drop 2).take 2, []] ∧
      ∃ places, overlapping.CutAtWord ['a', 'a'] places := by
  have hsingle : ∀ c ∈ overlapping, c.IsSingle :=
    isSingle_append (Position.isSingle_tag _ _) (isSingle_ofChars _ _)
  exact ⟨hsingle, by decide +kernel,
    (split_partitions overlapping).2 hsingle ['a', 'a'] (List.cons_ne_nil _ _)⟩

end MappedText

end NotebookCell
