import Mathlib.Data.List.Perm.Basic
import NotebookCell.Proofs.Provenance.Marks

/-!
# Edits in any order

Edits that replace disjoint ranges, and insertions that keep out of these ranges, do not get in each
other's way: in whatever order they are made, the text comes out as the direct splice of the source.
Only the texts inserted on one side of one character, or at one end of the text, have to keep their
order.
-/

namespace NotebookCell

/-- Where inserted texts stand one behind the other: at an end of the text, or on a side of the
character of a slot. -/
inductive Seat where
  | front
  | before (slot : Nat)
  | behind (slot : Nat)
  | back
deriving DecidableEq

def Fragment.chars : Fragment → List Char
  | .plain chars => chars
  | .mapped text => text.chars

namespace Edit

def fragment : Edit → Fragment
  | .replace _ _ text | .insertBefore _ text | .insertAfter _ text | .prepend text | .append text =>
    text

/-- The seat of an insertion into a buffer of `size` slots. An edit that replaces characters has
none. -/
def seat? (size : Nat) : Edit → Option Seat
  | .replace start stop _ =>
    if start = stop then some (if start = size then .back else .before start.toNat) else none
  | .insertBefore start _ => some (.before start.toNat)
  | .insertAfter stop _ => some (.behind (stop - 1).toNat)
  | .prepend _ => some .front
  | .append _ => some .back

def insertionsAt (size : Nat) (edits : List Edit) (seat : Seat) : List Edit :=
  edits.filter fun edit => edit.seat? size = some seat

/-- Edits with plain text that do not get in each other's way in a buffer of `size` slots. -/
structure Independent (size : Nat) (edits : List Edit) : Prop where
  plain : ∀ edit ∈ edits, edit.IsPlain
  inRange : ∀ edit ∈ edits, edit.InRange size
  disjoint : edits.Pairwise fun a b => ∀ slot, ¬(a.Replaces slot ∧ b.Replaces slot)
  apart : ∀ edit ∈ edits, ∀ slot,
    edit.seat? size = some (.before slot) ∨ edit.seat? size = some (.behind slot) →
      ¬Replaced edits slot

/-- The same edits in another order, which keeps the order of the insertions at every seat. -/
structure Reordered (size : Nat) (order edits : List Edit) : Prop where
  perm : order.Perm edits
  seats : ∀ seat, insertionsAt size order seat = insertionsAt size edits seat

/-! ### The splice -/

instance (place : Nat) (edit : Edit) : Decidable (edit.Replaces place) := by
  cases edit <;> unfold Replaces <;> infer_instance

/-- The texts of some edits, one behind the other, as nobody's text. -/
def joined (edits : List Edit) : MappedText := .ofChars (edits.flatMap fun edit => edit.fragment.chars) none

/-- What edits make of one character of the source. A character that stays has the texts inserted in
front of it before it, the latest first, and those inserted behind it after it. The first character of
a replaced range gives way to the new text, all with its origin, and the others to nothing. -/
def spliceAt (source : MappedText) (edits : List Edit) (slot : Nat) : MappedText :=
  match edits.find? fun edit => edit.Replaces slot with
  | some (.replace start _ text) =>
    if start = slot then .ofChars text.chars ((source[slot]?).bind MappedChar.origin) else []
  | _ =>
    joined (insertionsAt source.length edits (.before slot)).reverse ++ source.cell slot ++
      joined (insertionsAt source.length edits (.behind slot))

/-- The source with the edits made in it, read off the source and the edits. -/
def splice (source : MappedText) (edits : List Edit) : MappedText :=
  joined (insertionsAt source.length edits .front).reverse ++
    (List.range source.length).flatMap (spliceAt source edits) ++
    joined (insertionsAt source.length edits .back)

/-! ### Insertions seat by seat -/

def inserted (size : Nat) (edit : Edit) (seat : Seat) : MappedText :=
  if edit.seat? size = some seat then .ofChars edit.fragment.chars none else []

variable {size k : Nat} {edit : Edit} {edits order : List Edit}

theorem insertionsAt_cons (seat : Seat) :
    insertionsAt size (edit :: edits) seat =
      if edit.seat? size = some seat then edit :: insertionsAt size edits seat
      else insertionsAt size edits seat := by
  unfold insertionsAt
  rw [List.filter_cons]
  simp only [decide_eq_true_eq]

theorem joined_insertionsAt_cons (seat : Seat) :
    joined (insertionsAt size (edit :: edits) seat) =
      inserted size edit seat ++ joined (insertionsAt size edits seat) := by
  rw [insertionsAt_cons, inserted]
  split
  · exact List.map_append
  · rfl

theorem joined_reverse_insertionsAt_cons (seat : Seat) :
    joined (insertionsAt size (edit :: edits) seat).reverse =
      joined (insertionsAt size edits seat).reverse ++ inserted size edit seat := by
  rw [insertionsAt_cons, inserted]
  split
  · rw [List.reverse_cons, joined, List.flatMap_append, List.flatMap_singleton]
    exact List.map_append
  · rw [List.append_nil]

theorem insertionsAt_eq_nil {seat : Seat} (h : ∀ edit ∈ edits, edit.seat? size ≠ some seat) :
    insertionsAt size edits seat = [] := by
  refine List.filter_eq_nil_iff.mpr fun edit hedit => ?_
  rw [decide_eq_true_eq]
  exact h edit hedit

theorem IsPlain.toMapped (h : edit.IsPlain) (origin : Option Position) :
    edit.fragment.toMapped origin = .ofChars edit.fragment.chars origin := by
  cases edit with
  | _ =>
    obtain ⟨chars, rfl⟩ := h
    rfl

theorem IsPlain.onHead (h : edit.IsPlain) (size : Nat) (head : MappedText) :
    edit.onHead head = inserted size edit .front ++ head := by
  have htext := h.toMapped none
  cases edit with
  | prepend text => exact congrArg (· ++ head) htext
  | replace start stop text =>
    have hseat : (replace start stop text).seat? size ≠ some .front := by grind [seat?]
    rw [inserted, if_neg hseat]
    rfl
  | _ => rfl

theorem IsPlain.onTail (h : edit.IsPlain) (tail : MappedText) :
    edit.onTail size tail = tail ++ inserted size edit .back := by
  have htext := h.toMapped none
  cases edit with
  | replace start stop text =>
    have hseat : (replace start stop text).seat? size = some .back ↔ start = stop ∧ start = size := by
      grind [seat?]
    rw [inserted, ← htext]
    simp only [hseat, Edit.onTail]
    split
    · rfl
    · exact (List.append_nil tail).symm
  | append text => exact congrArg (tail ++ ·) htext
  | _ => exact (List.append_nil tail).symm

/-- Where an edit replaces nothing, it puts its text around what the slot held. -/
theorem IsPlain.onSlot (h : edit.IsPlain) (hrange : edit.InRange size) (hk : k < size)
    (hkept : ¬edit.Replaces k) (held : MappedText) :
    edit.onSlot k held = inserted size edit (.before k) ++ held ++ inserted size edit (.behind k) := by
  have htext := h.toMapped none
  cases edit with
  | replace start stop text =>
    simp only [Replaces] at hkept
    simp only [InRange] at hrange
    have hbefore : (replace start stop text).seat? size = some (.before k) ↔
        start = stop ∧ start = k := by
      grind [seat?]
    have hbehind : (replace start stop text).seat? size ≠ some (.behind k) := by grind [seat?]
    rw [inserted, inserted, if_neg hbehind, List.append_nil, ← htext]
    simp only [hbefore, ite_and, Edit.onSlot, if_neg hkept]
    split
    · split <;> rfl
    · rfl
  | insertBefore start text =>
    simp only [InRange] at hrange
    have hseat : (insertBefore start text).seat? size = some (.before k) ↔ start = k := by
      grind [seat?]
    have hbehind : (insertBefore start text).seat? size ≠ some (.behind k) := by grind [seat?]
    rw [inserted, inserted, if_neg hbehind, List.append_nil, ← htext]
    simp only [hseat, Edit.onSlot]
    split <;> rfl
  | insertAfter stop text =>
    simp only [InRange] at hrange
    have hseat : (insertAfter stop text).seat? size = some (.behind k) ↔ stop - 1 = k := by
      grind [seat?]
    have hbefore : (insertAfter stop text).seat? size ≠ some (.before k) := by grind [seat?]
    rw [inserted, inserted, if_neg hbefore, List.nil_append, ← htext]
    simp only [hseat, Edit.onSlot]
    split
    · rfl
    · exact (List.append_nil held).symm
  | prepend text | append text => exact (List.append_nil held).symm

/-- A round of edits in which no edit replaces a slot puts all texts for the slot around what it
held. -/
theorem content_kept_eq (hplain : ∀ edit ∈ edits, edit.IsPlain)
    (hrange : ∀ edit ∈ edits, edit.InRange size) (hk : k < size) (hkept : ¬Replaced edits k)
    (held : MappedText) :
    content edits k held = joined (insertionsAt size edits (.before k)).reverse ++ held ++
      joined (insertionsAt size edits (.behind k)) := by
  induction edits generalizing held with
  | nil => exact (List.append_nil held).symm
  | cons edit edits ih =>
    have hfirst : ¬edit.Replaces k := fun h => hkept ⟨edit, List.mem_cons_self, h⟩
    have hrest : ¬Replaced edits k := fun ⟨other, hother, h⟩ =>
      hkept ⟨other, List.mem_cons_of_mem edit hother, h⟩
    have hslot := (hplain edit List.mem_cons_self).onSlot (hrange edit List.mem_cons_self) hk hfirst held
    rw [content_cons, hslot, ih (fun e he => hplain e (List.mem_cons_of_mem edit he))
      (fun e he => hrange e (List.mem_cons_of_mem edit he)) hrest, joined_reverse_insertionsAt_cons,
      joined_insertionsAt_cons]
    simp only [List.append_assoc]

theorem foldl_onHead_eq (hplain : ∀ edit ∈ edits, edit.IsPlain) (size : Nat) (head : MappedText) :
    edits.foldl Edit.onHead head = joined (insertionsAt size edits .front).reverse ++ head := by
  induction edits generalizing head with
  | nil => rfl
  | cons edit edits ih =>
    rw [List.foldl_cons, (hplain edit List.mem_cons_self).onHead size,
      ih fun e he => hplain e (List.mem_cons_of_mem edit he), joined_reverse_insertionsAt_cons,
      List.append_assoc]

theorem foldl_onTail_eq (hplain : ∀ edit ∈ edits, edit.IsPlain) (tail : MappedText) :
    edits.foldl (Edit.onTail size) tail = tail ++ joined (insertionsAt size edits .back) := by
  induction edits generalizing tail with
  | nil => exact (List.append_nil tail).symm
  | cons edit edits ih =>
    rw [List.foldl_cons, (hplain edit List.mem_cons_self).onTail,
      ih fun e he => hplain e (List.mem_cons_of_mem edit he), joined_insertionsAt_cons,
      List.append_assoc]

/-! ### Rounds of independent edits -/

theorem Independent.reordered (h : Independent size edits) (ho : Reordered size order edits) :
    Independent size order where
  plain edit hedit := h.plain edit (ho.perm.mem_iff.mp hedit)
  inRange edit hedit := h.inRange edit (ho.perm.mem_iff.mp hedit)
  disjoint := by
    refine (ho.perm.pairwise_iff ?_).mpr h.disjoint
    intro a b hab slot hslot
    exact hab slot hslot.symm
  apart edit hedit slot hseat := by
    rintro ⟨other, hother, hslot⟩
    exact h.apart edit (ho.perm.mem_iff.mp hedit) slot hseat
      ⟨other, ho.perm.mem_iff.mp hother, hslot⟩

theorem content_untouched (hplain : ∀ edit ∈ edits, edit.IsPlain)
    (hrange : ∀ edit ∈ edits, edit.InRange size) (hk : k < size) (hkept : ¬Replaced edits k)
    (hseats : ∀ edit ∈ edits,
      edit.seat? size ≠ some (.before k) ∧ edit.seat? size ≠ some (.behind k))
    (held : MappedText) : content edits k held = held := by
  rw [content_kept_eq hplain hrange hk hkept, insertionsAt_eq_nil fun e he => (hseats e he).1,
    insertionsAt_eq_nil fun e he => (hseats e he).2]
  exact List.append_nil held

/-- In a round of independent edits the edit that replaces a slot acts there alone. -/
theorem Independent.content_replaced (h : Independent size edits) (hk : k < size)
    (hedit : edit ∈ edits) (hslot : edit.Replaces k) (held : MappedText) :
    content edits k held = edit.onSlot k held := by
  have hseats : ∀ other ∈ edits,
      other.seat? size ≠ some (.before k) ∧ other.seat? size ≠ some (.behind k) := fun other hother =>
    ⟨fun hat => h.apart other hother k (Or.inl hat) ⟨edit, hedit, hslot⟩,
      fun hat => h.apart other hother k (Or.inr hat) ⟨edit, hedit, hslot⟩⟩
  have hplain := h.plain
  have hrange := h.inRange
  have hdisjoint := h.disjoint
  obtain ⟨earlier, later, rfl⟩ := List.append_of_mem hedit
  rw [List.pairwise_middle fun {a b} hab slot hboth => hab slot hboth.symm, List.pairwise_cons]
    at hdisjoint
  -- nothing but `edit` itself is felt in the slot
  have hothers (others : List Edit) (hsub : others ⊆ earlier ++ later) (held : MappedText) :
      content others k held = held := by
    have hmem : ∀ other ∈ others, other ∈ earlier ++ edit :: later := fun other hother =>
      List.perm_middle.symm.subset (List.mem_cons_of_mem edit (hsub hother))
    refine content_untouched (fun e he => hplain e (hmem e he)) (fun e he => hrange e (hmem e he)) hk
      ?_ (fun e he => hseats e (hmem e he)) held
    rintro ⟨other, hother, hr⟩
    exact hdisjoint.1 other (hsub hother) k ⟨hslot, hr⟩
  rw [content_append, content_cons, hothers earlier (List.subset_append_left earlier later),
    hothers later (List.subset_append_right earlier later)]

theorem firstOrigin_cell (source : MappedText) (slot : Nat) :
    (source.cell slot).firstOrigin = (source[slot]?).bind MappedChar.origin := by
  rw [MappedText.cell]
  cases source[slot]? <;> rfl

/-- What an order of independent edits makes of a character is what the splice has in its place. -/
theorem content_eq_spliceAt {source : MappedText} (h : Independent source.length edits)
    (ho : Reordered source.length order edits) (hk : k < source.length) :
    content order k (source.cell k) = spliceAt source edits k := by
  have horder := h.reordered ho
  unfold spliceAt
  cases hfound : edits.find? fun edit => edit.Replaces k with
  | none =>
    have hkept : ¬Replaced order k := by
      rintro ⟨edit, hedit, hslot⟩
      have hno := List.find?_eq_none.mp hfound edit (ho.perm.mem_iff.mp hedit)
      exact hno (decide_eq_true hslot)
    rw [content_kept_eq horder.plain horder.inRange hk hkept, ho.seats, ho.seats]
  | some edit =>
    have hslot : edit.Replaces k := by simpa using List.find?_some hfound
    have hedit : edit ∈ order := ho.perm.mem_iff.mpr (List.mem_of_find?_eq_some hfound)
    rw [horder.content_replaced hk hedit hslot]
    have htext := (horder.plain edit hedit).toMapped ((source[k]?).bind MappedChar.origin)
    cases edit with
    | replace start stop text =>
      have hin : start ≤ k ∧ (k : Int) < stop := hslot
      have hfilled : ¬start = stop := by omega
      simp only [fragment] at htext
      rw [Edit.onSlot, if_neg hfilled, if_pos hin, firstOrigin_cell, htext]
    | _ => exact hslot.elim

end Edit

/-- Independent edits make the direct splice of the source, in every order that keeps the order of the
insertions at each seat. -/
theorem EditBuffer.flush_applyAll_reordered {source : MappedText} {edits order : List Edit}
    (h : Edit.Independent source.length edits) (ho : Edit.Reordered source.length order edits) :
    ((EditBuffer.ofText source).applyAll order).map EditBuffer.flush =
      .ok (Edit.splice source edits) := by
  have horder := h.reordered ho
  have hsize : (EditBuffer.ofText source).size = source.length := size_ofText source
  have hmade := applyAll_of_inRange (EditBuffer.ofText source) order (hsize ▸ horder.inRange)
  have hpatch : Edit.patch source order 0 source.length =
      (List.range source.length).flatMap (Edit.spliceAt source edits) := by
    rw [Edit.patch, Nat.sub_zero, ← List.range_eq_range']
    exact List.flatMap_congr fun k hk => Edit.content_eq_spliceAt h ho (List.mem_range.mp hk)
  rw [hmade, Except.map, flush_after, hpatch, Edit.foldl_onHead_eq horder.plain source.length,
    Edit.foldl_onTail_eq horder.plain, ho.seats, ho.seats, List.append_nil, List.nil_append, Edit.splice]

def fourLetters : MappedText := SourceFile.mapped { id := 0, name := some "a.js", text := "abcd" }

/-- Edits of four characters: two are replaced, and text is put around the others and at both ends. -/
def letterEdits : List Edit :=
  [.insertBefore 0 (.ofString "1"), .insertAfter 1 (.ofString ")"), .replace 1 3 (.ofString "XYZ"),
    .insertBefore 0 (.ofString "2"), .replace 3 3 (.ofString "-"), .prepend (.ofString "["),
    .append (.ofString "]"), .replace 4 4 (.ofString "!"), .insertAfter 1 (.ofString ";")]

/-- The same edits, begun with those at the end of the text. -/
def letterOrder : List Edit :=
  [.append (.ofString "]"), .replace 4 4 (.ofString "!"), .replace 3 3 (.ofString "-"),
    .replace 1 3 (.ofString "XYZ"), .insertAfter 1 (.ofString ")"), .insertAfter 1 (.ofString ";"),
    .insertBefore 0 (.ofString "1"), .prepend (.ofString "["), .insertBefore 0 (.ofString "2")]

theorem letterEdits_independent : Edit.Independent 4 letterEdits := by
  refine ⟨?_, ?_, ?_, ?_⟩
  · simp [letterEdits, Edit.IsPlain, Fragment.ofString]
  · simp [letterEdits, Edit.InRange]
  · simp [letterEdits, Edit.Replaces]
  · have hslots : ∀ edit ∈ letterEdits, ∀ slot, edit.seat? 4 = some (.before slot) ∨
        edit.seat? 4 = some (.behind slot) → slot = 0 ∨ slot = 3 := by
      simp [letterEdits, Edit.seat?, eq_comm]
    intro edit hedit slot hseat
    rcases hslots edit hedit slot hseat with rfl | rfl <;>
      simp [letterEdits, Edit.Replaced, Edit.Replaces]

theorem letterOrder_reordered : Edit.Reordered 4 letterOrder letterEdits := by
  refine ⟨by decide +kernel, fun seat => ?_⟩
  cases seat with
  | front | back => rfl
  | before slot | behind slot => rcases slot with _ | _ | _ | _ | slot <;> rfl

theorem EditBuffer.flush_applyAll_reordered_applied :
    Edit.Independent 4 letterEdits ∧ Edit.Reordered 4 letterOrder letterEdits ∧
      ((EditBuffer.ofText fourLetters).applyAll letterOrder).map EditBuffer.flush =
        .ok (.ofString "[21" ++ fourLetters.cell 0 ++ .ofString ");" ++
          .ofString "XYZ" (fourLetters.cell 1).firstOrigin ++ .ofString "-" ++ fourLetters.cell 3 ++
          .ofString "]!") := by
  have hsplice : ((EditBuffer.ofText fourLetters).applyAll letterOrder).map EditBuffer.flush =
      .ok (Edit.splice fourLetters letterEdits) :=
    flush_applyAll_reordered letterEdits_independent letterOrder_reordered
  exact ⟨letterEdits_independent, letterOrder_reordered, hsplice.trans (by decide +kernel)⟩

end NotebookCell
