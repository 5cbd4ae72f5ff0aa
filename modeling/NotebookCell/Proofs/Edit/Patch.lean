import Mathlib.Data.List.Basic
import NotebookCell.Proofs.Edit.Slots

/-!
# Patches and splices

A patch is what a round of edits leaves of a range of the text. Patches of adjacent ranges join, and
edits elsewhere do not show in them, so that the patch of a whole text is found range by range. A
splice is the plain way to say what came out: pieces put in place of ranges, and the text between the
ranges as it was.
-/

namespace NotebookCell

namespace MappedText

def segment (text : MappedText) (lo hi : Nat) : MappedText := (text.take hi).drop lo

/-- The character at one place, as a text; nothing outside the text. -/
def cell (text : MappedText) (place : Nat) : MappedText := (text[place]?).toList

/-- Characters in place of a range, with the origin of the first character that was there. -/
def inPlace (text : MappedText) (lo hi : Nat) (chars : List Char) : MappedText :=
  .ofChars chars (text.segment lo hi).firstOrigin

theorem segment_self (text : MappedText) (lo : Nat) : text.segment lo lo = [] := by
  simp [segment]

theorem segment_append (text : MappedText) {a b c : Nat} (hab : a ≤ b) (hbc : b ≤ c) :
    text.segment a b ++ text.segment b c = text.segment a c := by
  simp only [segment, List.drop_take]
  obtain ⟨d, rfl⟩ : ∃ d, b = a + d := ⟨b - a, by omega⟩
  obtain ⟨e, rfl⟩ : ∃ e, c = a + d + e := ⟨c - (a + d), by omega⟩
  have h1 : a + d - a = d := by omega
  have h2 : a + d + e - (a + d) = e := by omega
  have h3 : a + d + e - a = d + e := by omega
  rw [h1, h2, h3, List.take_add, List.drop_drop]

theorem segment_succ (text : MappedText) (lo : Nat) :
    text.segment lo (lo + 1) = text.cell lo := by
  simp only [segment, cell, List.drop_take]
  have h1 : lo + 1 - lo = 1 := by omega
  rw [h1]
  cases hd : text.drop lo with
  | nil =>
    have hlen : text.length ≤ lo := by simpa using hd
    simp [hlen]
  | cons c rest =>
    have hget : text[lo]? = some c := by
      have h0 : (text.drop lo)[0]? = some c := by simp [hd]
      simpa using h0
    simp [hget]

theorem inPlace_eq (text : MappedText) {lo hi : Nat} (h : lo < hi) (chars : List Char) :
    text.inPlace lo hi chars = .ofChars chars (text.cell lo).firstOrigin := by
  have hsplit : text.segment lo hi = text.cell lo ++ text.segment (lo + 1) hi := by
    rw [← segment_succ, segment_append text (Nat.le_succ lo) h]
  rw [inPlace, hsplit, cell]
  cases hget : text[lo]? with
  | some c => rfl
  | none =>
    have hlen : text.length ≤ lo := List.getElem?_eq_none_iff.mp hget
    have hnone : text.segment (lo + 1) hi = [] := by
      rw [segment, List.drop_eq_nil_iff, List.length_take]
      omega
    rw [hnone]
    rfl

end MappedText

/-! ### Where an edit is felt -/

/-- The edit lies within the characters from `lo` up to `hi`: it is felt in no slot outside. -/
def Edit.Within (lo hi : Nat) : Edit → Prop
  | .replace start stop _ => lo ≤ start ∧ start < stop ∧ stop ≤ hi
  | .insertBefore start _ => lo ≤ start ∧ start < hi
  | .insertAfter stop _ => lo < stop ∧ stop ≤ hi
  | .prepend _ => False
  | .append _ => False

def Edit.AllWithin (lo hi : Nat) (edits : List Edit) : Prop := ∀ edit ∈ edits, edit.Within lo hi

namespace Edit

theorem Within.mono {lo hi lo' hi' : Nat} {edit : Edit} (h : edit.Within lo hi) (hlo : lo' ≤ lo)
    (hhi : hi ≤ hi') : edit.Within lo' hi' := by
  cases edit <;> simp only [Within] at h ⊢ <;> omega

theorem Within.inRange {lo hi size : Nat} {edit : Edit} (h : edit.Within lo hi) (hn : hi ≤ size) :
    edit.InRange size := by
  cases edit <;> simp only [Within, InRange] at h ⊢ <;> omega

theorem Within.onSlot_outside {lo hi k : Nat} {edit : Edit} (h : edit.Within lo hi)
    (hk : k < lo ∨ hi ≤ k) (held : MappedText) : edit.onSlot k held = held := by
  cases edit with
  | replace start stop text =>
    simp only [Within] at h
    have h1 : ¬ start = stop := by omega
    have h2 : ¬ (start ≤ k ∧ (k : Int) < stop) := by omega
    simp only [onSlot, h1, h2, if_false]
  | insertBefore start text =>
    simp only [Within] at h
    have h1 : ¬ start = k := by omega
    simp only [onSlot, h1, if_false]
  | insertAfter stop text =>
    simp only [Within] at h
    have h1 : ¬ stop - 1 = k := by omega
    simp only [onSlot, h1, if_false]
  | prepend text => exact h.elim
  | append text => exact h.elim

theorem Within.onHead_eq {lo hi : Nat} {edit : Edit} (h : edit.Within lo hi) (head : MappedText) :
    edit.onHead head = head := by
  cases edit with
  | prepend text => exact h.elim
  | _ => rfl

theorem Within.onTail_eq {lo hi : Nat} {edit : Edit} (h : edit.Within lo hi) (size : Nat)
    (tail : MappedText) : edit.onTail size tail = tail := by
  cases edit with
  | replace start stop text =>
    simp only [Within] at h
    have h1 : ¬ (start = stop ∧ start = size) := by omega
    simp only [onTail, h1, if_false]
  | append text => exact h.elim
  | _ => rfl

theorem allWithin_nil (lo hi : Nat) : AllWithin lo hi [] := by
  intro edit he
  cases he

theorem AllWithin.append {lo hi : Nat} {a b : List Edit} (ha : AllWithin lo hi a)
    (hb : AllWithin lo hi b) : AllWithin lo hi (a ++ b) := by
  intro edit he
  rcases List.mem_append.mp he with he | he
  · exact ha edit he
  · exact hb edit he

theorem AllWithin.mono {lo hi lo' hi' : Nat} {edits : List Edit} (h : AllWithin lo hi edits)
    (hlo : lo' ≤ lo) (hhi : hi ≤ hi') : AllWithin lo' hi' edits :=
  fun edit he => (h edit he).mono hlo hhi

theorem allWithin_singleton {lo hi : Nat} {edit : Edit} (h : edit.Within lo hi) :
    AllWithin lo hi [edit] := by
  intro e he
  rw [List.mem_singleton.mp he]
  exact h

theorem AllWithin.content_outside {lo hi k : Nat} {edits : List Edit} (h : AllWithin lo hi edits)
    (hk : k < lo ∨ hi ≤ k) (held : MappedText) : content edits k held = held := by
  induction edits generalizing held with
  | nil => rfl
  | cons edit edits ih =>
    have he := (h edit (List.mem_cons_self ..)).onSlot_outside hk held
    rw [content_cons, he]
    exact ih (fun e hm => h e (List.mem_cons_of_mem _ hm)) held

/-! ### Patches -/

/-- What a round of edits leaves of the characters from `lo` up to `hi`. -/
def patch (source : MappedText) (edits : List Edit) (lo hi : Nat) : MappedText :=
  (List.range' lo (hi - lo)).flatMap fun k => content edits k (source.cell k)

theorem patch_self (source : MappedText) (edits : List Edit) (lo : Nat) :
    patch source edits lo lo = [] := by
  simp [patch]

theorem patch_append (source : MappedText) (edits : List Edit) {a b c : Nat} (hab : a ≤ b)
    (hbc : b ≤ c) : patch source edits a b ++ patch source edits b c = patch source edits a c := by
  obtain ⟨d, rfl⟩ : ∃ d, b = a + d := ⟨b - a, by omega⟩
  obtain ⟨e, rfl⟩ : ∃ e, c = a + d + e := ⟨c - (a + d), by omega⟩
  have h1 : a + d - a = d := by omega
  have h2 : a + d + e - (a + d) = e := by omega
  have h3 : a + d + e - a = d + e := by omega
  have hr : List.range' a (d + e) = List.range' a d ++ List.range' (a + d) e := by
    simp [List.range'_append_1]
  simp only [patch]
  rw [h1, h2, h3, hr, List.flatMap_append]

/-- Rounds of edits that agree on the slots of a range leave the same of it. -/
theorem patch_congr (source : MappedText) {a b : List Edit} {lo hi : Nat}
    (h : ∀ k, lo ≤ k → k < hi → ∀ held, content a k held = content b k held) :
    patch source a lo hi = patch source b lo hi := by
  simp only [patch]
  refine List.flatMap_congr fun k hk => ?_
  rw [List.mem_range'_1] at hk
  exact h k hk.1 (by omega) _

theorem patch_cons_slot (source : MappedText) (edits : List Edit) {lo hi : Nat} (h : lo < hi) :
    patch source edits lo hi =
      content edits lo (source.cell lo) ++ patch source edits (lo + 1) hi := by
  rw [← patch_append source edits (Nat.le_succ lo) h]
  simp [patch]

theorem patch_snoc_slot (source : MappedText) (edits : List Edit) {lo hi : Nat} (h : lo < hi) :
    patch source edits lo hi =
      patch source edits lo (hi - 1) ++ content edits (hi - 1) (source.cell (hi - 1)) := by
  have hlast : patch source edits (hi - 1) hi = content edits (hi - 1) (source.cell (hi - 1)) := by
    have h1 : hi - (hi - 1) = 1 := by omega
    simp [patch, h1]
  rw [← hlast]
  exact (patch_append source edits (by omega) (by omega)).symm

theorem patch_untouched (source : MappedText) {edits : List Edit} {lo hi : Nat} (hle : lo ≤ hi)
    (h : ∀ k, lo ≤ k → k < hi → ∀ held, content edits k held = held) :
    patch source edits lo hi = source.segment lo hi := by
  obtain ⟨d, rfl⟩ : ∃ d, hi = lo + d := ⟨hi - lo, by omega⟩
  clear hle
  induction d with
  | zero => simp [patch_self, MappedText.segment_self]
  | succ d ih =>
    have hd := ih fun k h1 h2 => h k h1 (by omega)
    have hlast : patch source edits (lo + d) (lo + d + 1) = source.cell (lo + d) := by
      rw [patch_cons_slot source edits (Nat.lt_succ_self _), patch_self, List.append_nil]
      exact h (lo + d) (by omega) (by omega) _
    rw [← Nat.add_assoc, ← patch_append source edits (Nat.le_add_right lo d) (Nat.le_succ _), hd,
      hlast, ← MappedText.segment_succ]
    exact MappedText.segment_append source (Nat.le_add_right lo d) (Nat.le_succ _)

theorem patch_nil (source : MappedText) {lo hi : Nat} (hle : lo ≤ hi) :
    patch source [] lo hi = source.segment lo hi :=
  patch_untouched source hle fun _ _ _ _ => rfl

theorem patch_insertBefore (source : MappedText) (edits : List Edit) (text : Fragment)
    {lo hi : Nat} (h : lo < hi) :
    patch source (edits ++ [.insertBefore lo text]) lo hi =
      text.toMapped ++ patch source edits lo hi := by
  have hrest : patch source (edits ++ [.insertBefore lo text]) (lo + 1) hi =
      patch source edits (lo + 1) hi := by
    refine patch_congr source fun k h1 _ held => ?_
    have hne : ¬ (lo : Int) = k := by omega
    simp [onSlot, hne]
  rw [patch_cons_slot source _ h, patch_cons_slot source edits h, hrest]
  simp [onSlot]

theorem patch_insertAfter (source : MappedText) (edits : List Edit) (text : Fragment)
    {lo hi : Nat} (h : lo < hi) :
    patch source (edits ++ [.insertAfter hi text]) lo hi =
      patch source edits lo hi ++ text.toMapped := by
  have hrest : patch source (edits ++ [.insertAfter hi text]) lo (hi - 1) =
      patch source edits lo (hi - 1) := by
    refine patch_congr source fun k _ h2 held => ?_
    have hne : ¬ (hi : Int) - 1 = k := by omega
    simp [onSlot, hne]
  have hlast : (hi : Int) - 1 = ((hi - 1 : Nat) : Int) := by omega
  rw [patch_snoc_slot source _ h, patch_snoc_slot source edits h, hrest]
  simp [onSlot, hlast, List.append_assoc]

/-- A range that is replaced comes out as the new text, with the origin of what its first slot
held. -/
theorem patch_replace (source : MappedText) (edits : List Edit) (text : Fragment) {lo hi : Nat}
    (h : lo < hi) :
    patch source (edits ++ [.replace lo hi text]) lo hi =
      text.toMapped (content edits lo (source.cell lo)).firstOrigin := by
  have hne : ¬ (lo : Int) = hi := by omega
  have hrest : patch source (edits ++ [.replace lo hi text]) (lo + 1) hi = [] := by
    simp only [patch, List.flatMap_eq_nil_iff, List.mem_range'_1]
    intro k hk
    have h1 : ¬ (lo : Int) = k := by omega
    have h2 : (lo : Int) ≤ k ∧ (k : Int) < hi := by omega
    simp only [content_append, content_cons, content_nil, onSlot, hne, h1, h2, and_self, if_true,
      if_false]
  have hin : (lo : Int) ≤ lo ∧ (lo : Int) < hi := by omega
  rw [patch_cons_slot source _ h, hrest]
  simp only [content_append, content_cons, content_nil, onSlot, hne, hin, and_self, if_true,
    if_false, List.append_nil]

end Edit

/-- What a round of edits makes of a text: the texts at both ends, and the patch of the whole. -/
theorem EditBuffer.flush_after (source : MappedText) (edits : List Edit) :
    ((EditBuffer.ofText source).after edits).flush =
      edits.foldl Edit.onHead [] ++ Edit.patch source edits 0 source.length ++
        edits.foldl (Edit.onTail source.length) [] := by
  have hslots : (source.map fun c => [c]).mapIdx (fun k held => Edit.content edits k held) =
      (List.range' 0 source.length).map fun k => Edit.content edits k (source.cell k) := by
    refine List.ext_getElem? fun k => ?_
    by_cases hk : k < source.length
    · simp [MappedText.cell, hk]
    · simp [hk]
  have hsize : (EditBuffer.ofText source).size = source.length := size_ofText source
  simp only [flush, after, hsize]
  simp only [ofText, hslots, Edit.patch, Nat.sub_zero, List.flatMap_def]

theorem EditBuffer.flush_applyAll_within (source : MappedText) (edits : List Edit)
    (h : Edit.AllWithin 0 source.length edits) :
    (EditBuffer.ofText source).applyAll edits = .ok ((EditBuffer.ofText source).after edits) ∧
      ((EditBuffer.ofText source).after edits).flush =
        Edit.patch source edits 0 source.length := by
  constructor
  · refine applyAll_of_inRange _ edits fun edit he => (h edit he).inRange ?_
    simp
  · have hends : edits.foldl Edit.onHead [] = [] ∧
        edits.foldl (Edit.onTail source.length) [] = [] := by
      induction edits with
      | nil => exact ⟨rfl, rfl⟩
      | cons edit edits ih =>
        have he := h edit (List.mem_cons_self ..)
        simp only [List.foldl_cons, he.onHead_eq, he.onTail_eq]
        exact ih fun e hm => h e (List.mem_cons_of_mem _ hm)
    rw [flush_after, hends.1, hends.2, List.nil_append, List.append_nil]

/-! ### Splices -/

/-- A text in place of the characters from `start` up to `stop`. -/
structure Piece where
  start : Nat
  stop : Nat
  text : MappedText

namespace Piece

/-- The pieces stand one behind the other between `lo` and `hi`. -/
def Row (lo hi : Nat) : List Piece → Prop
  | [] => lo ≤ hi
  | piece :: pieces => lo ≤ piece.start ∧ piece.start ≤ piece.stop ∧ Row piece.stop hi pieces

/-- The text from `lo` up to `hi` with the pieces in place of their ranges. -/
def splice (source : MappedText) (lo hi : Nat) : List Piece → MappedText
  | [] => source.segment lo hi
  | piece :: pieces =>
    source.segment lo piece.start ++ piece.text ++ splice source piece.stop hi pieces

theorem Row.le {lo hi : Nat} {pieces : List Piece} (h : Row lo hi pieces) : lo ≤ hi := by
  induction pieces generalizing lo with
  | nil => exact h
  | cons piece pieces ih =>
    have := ih h.2.2
    have h1 := h.1
    have h2 := h.2.1
    omega

theorem Row.start_le {lo hi : Nat} {pieces : List Piece} (h : Row lo hi pieces) :
    ∀ piece ∈ pieces, lo ≤ piece.start := by
  induction pieces generalizing lo with
  | nil =>
    intro piece hp
    cases hp
  | cons first pieces ih =>
    intro piece hp
    obtain ⟨h1, h2, hrest⟩ := h
    rcases List.mem_cons.mp hp with rfl | hp
    · exact h1
    · have := ih hrest piece hp
      omega

/-- A round of edits that leaves of every piece's range the piece's text, and that is not felt
between the pieces, makes the splice. -/
theorem patch_eq_splice (source : MappedText) (edits : List Edit) {lo hi : Nat}
    {pieces : List Piece} (hrow : Row lo hi pieces)
    (hgap : ∀ k, lo ≤ k → k < hi → (∀ piece ∈ pieces, k < piece.start ∨ piece.stop ≤ k) →
      ∀ held, Edit.content edits k held = held)
    (htext : ∀ piece ∈ pieces, Edit.patch source edits piece.start piece.stop = piece.text) :
    Edit.patch source edits lo hi = splice source lo hi pieces := by
  induction pieces generalizing lo with
  | nil =>
    refine Edit.patch_untouched source hrow fun k h1 h2 held => hgap k h1 h2 ?_ held
    intro piece hp
    cases hp
  | cons piece pieces ih =>
    obtain ⟨h1, h2, hrest⟩ := hrow
    have h3 := hrest.le
    have hfront : Edit.patch source edits lo piece.start = source.segment lo piece.start := by
      refine Edit.patch_untouched source h1 fun k hk1 hk2 held => hgap k hk1 (by omega) ?_ held
      intro p hp
      rcases List.mem_cons.mp hp with rfl | hp
      · exact Or.inl hk2
      · have := hrest.start_le p hp
        omega
    have hback : Edit.patch source edits piece.stop hi = splice source piece.stop hi pieces := by
      refine ih hrest (fun k hk1 hk2 hout held => hgap k (by omega) hk2 ?_ held) fun p hp =>
        htext p (List.mem_cons_of_mem _ hp)
      intro p hp
      rcases List.mem_cons.mp hp with rfl | hp
      · exact Or.inr hk1
      · exact hout p hp
    rw [← Edit.patch_append source edits h1 (Nat.le_trans h2 h3),
      ← Edit.patch_append source edits h2 h3, hfront, htext piece (List.mem_cons_self ..), hback,
      splice, List.append_assoc]

variable {lo mid hi : Nat} {pieces others : List Piece}

theorem Row.append (h : Row lo mid pieces) (h' : Row mid hi others) : Row lo hi (pieces ++ others) := by
  induction pieces generalizing lo with
  | nil =>
    have hle : lo ≤ mid := h
    cases others with
    | nil => exact Nat.le_trans hle h'
    | cons piece others => exact ⟨Nat.le_trans hle h'.1, h'.2⟩
  | cons piece pieces ih => exact ⟨h.1, h.2.1, ih h.2.2⟩

theorem splice_append (source : MappedText) (h : Row lo mid pieces) (h' : Row mid hi others) :
    splice source lo hi (pieces ++ others) =
      splice source lo mid pieces ++ splice source mid hi others := by
  induction pieces generalizing lo with
  | nil =>
    have hle : lo ≤ mid := h
    cases others with
    | nil => exact (source.segment_append hle h').symm
    | cons piece others =>
      rw [List.nil_append, splice, splice, splice, ← source.segment_append hle h'.1]
      simp only [List.append_assoc]
  | cons piece pieces ih =>
    rw [List.cons_append, splice, splice, ih h.2.2]
    simp only [List.append_assoc]

end Piece

end NotebookCell
