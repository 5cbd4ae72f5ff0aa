import Mathlib.Data.List.Forall2
import NotebookCell.Proofs.Edit.Patch

/-!
# Where the characters of an edited text come from

Edits with plain text never make up an origin. What a slot holds after them is the slot's character
with text of nobody around it, or, once the slot has been replaced, text that is nobody's or has the
character's origin. `Traced` says this of a whole text: each of its characters is marked as kept, as
copied from a replaced character, or as made up.
-/

namespace NotebookCell

def MappedText.origins (text : MappedText) : List Position := text.filterMap MappedChar.origin

def MappedText.Untagged (text : MappedText) : Prop := ∀ c ∈ text, c.origin = none

theorem MappedText.untagged_nil : MappedText.Untagged [] := by
  intro c hc
  cases hc

theorem MappedText.Untagged.append {a b : MappedText} (ha : a.Untagged) (hb : b.Untagged) :
    MappedText.Untagged (a ++ b) := by
  intro c hc
  rcases List.mem_append.mp hc with hc | hc
  · exact ha c hc
  · exact hb c hc

theorem MappedText.untagged_ofChars (chars : List Char) :
    (MappedText.ofChars chars none).Untagged := by
  intro c hc
  obtain ⟨ch, _, rfl⟩ := List.mem_map.mp hc
  rfl

/-! ### Slots under plain edits -/

def Edit.IsPlain : Edit → Prop
  | .replace _ _ text | .insertBefore _ text | .insertAfter _ text | .prepend text | .append text =>
    ∃ chars, text = .plain chars

/-- The edit replaces the character at `place`. -/
def Edit.Replaces (place : Nat) : Edit → Prop
  | .replace start stop _ => start ≤ place ∧ place < stop
  | _ => False

/-- Some edit of the round replaces the character at `place`. -/
def Edit.Replaced (edits : List Edit) (place : Nat) : Prop :=
  ∃ edit ∈ edits, edit.Replaces place

namespace Edit

theorem IsPlain.onSlot_kept {edit : Edit} (h : edit.IsPlain) {k : Nat} (hk : ¬ edit.Replaces k)
    (held : MappedText) :
    ∃ front back : MappedText, front.Untagged ∧ back.Untagged ∧
      edit.onSlot k held = front ++ held ++ back := by
  have hsame : held = [] ++ held ++ [] := by simp
  cases edit with
  | replace start stop text =>
    obtain ⟨chars, rfl⟩ := h
    simp only [Replaces] at hk
    simp only [onSlot]
    split
    · split
      · exact ⟨_, [], MappedText.untagged_ofChars chars, MappedText.untagged_nil, by simp; rfl⟩
      · exact ⟨[], [], MappedText.untagged_nil, MappedText.untagged_nil, hsame⟩
    · exact ⟨[], [], MappedText.untagged_nil, MappedText.untagged_nil, by simp⟩
  | insertBefore start text =>
    obtain ⟨chars, rfl⟩ := h
    simp only [onSlot]
    split
    · exact ⟨_, [], MappedText.untagged_ofChars chars, MappedText.untagged_nil, by simp; rfl⟩
    · exact ⟨[], [], MappedText.untagged_nil, MappedText.untagged_nil, hsame⟩
  | insertAfter stop text =>
    obtain ⟨chars, rfl⟩ := h
    simp only [onSlot]
    split
    · exact ⟨[], _, MappedText.untagged_nil, MappedText.untagged_ofChars chars, by simp; rfl⟩
    · exact ⟨[], [], MappedText.untagged_nil, MappedText.untagged_nil, hsame⟩
  | prepend text => exact ⟨[], [], MappedText.untagged_nil, MappedText.untagged_nil, hsame⟩
  | append text => exact ⟨[], [], MappedText.untagged_nil, MappedText.untagged_nil, hsame⟩

/-- A slot that is not replaced keeps its content, with text of nobody around it. -/
theorem content_kept {edits : List Edit} (h : ∀ edit ∈ edits, edit.IsPlain) {k : Nat}
    (hk : ¬ Replaced edits k) (held : MappedText) :
    ∃ front back : MappedText, front.Untagged ∧ back.Untagged ∧
      content edits k held = front ++ held ++ back := by
  induction edits generalizing held with
  | nil => exact ⟨[], [], MappedText.untagged_nil, MappedText.untagged_nil, by simp⟩
  | cons edit edits ih =>
    have hedit : ¬ edit.Replaces k := fun hr => hk ⟨edit, List.mem_cons_self .., hr⟩
    have hrest : ¬ Replaced edits k := by
      rintro ⟨e, he, hr⟩
      exact hk ⟨e, List.mem_cons_of_mem _ he, hr⟩
    obtain ⟨f1, b1, hf1, hb1, h1⟩ := (h edit (List.mem_cons_self ..)).onSlot_kept hedit held
    obtain ⟨f2, b2, hf2, hb2, h2⟩ :=
      ih (fun e he => h e (List.mem_cons_of_mem _ he)) hrest (edit.onSlot k held)
    refine ⟨f2 ++ f1, b1 ++ b2, hf2.append hf1, hb1.append hb2, ?_⟩
    rw [content_cons, h2, h1]
    simp only [List.append_assoc]

/-- Every character has the origin `origin` or none. -/
def TaggedAs (origin : Option Position) (text : MappedText) : Prop :=
  ∀ c ∈ text, c.origin = none ∨ c.origin = origin

theorem TaggedAs.append {origin : Option Position} {a b : MappedText} (ha : TaggedAs origin a)
    (hb : TaggedAs origin b) : TaggedAs origin (a ++ b) := by
  intro c hc
  rcases List.mem_append.mp hc with hc | hc
  · exact ha c hc
  · exact hb c hc

theorem taggedAs_ofChars {origin tag : Option Position} (chars : List Char)
    (h : tag = none ∨ tag = origin) : TaggedAs origin (MappedText.ofChars chars tag) := by
  intro c hc
  obtain ⟨ch, _, rfl⟩ := List.mem_map.mp hc
  exact h

theorem TaggedAs.firstOrigin {origin : Option Position} {text : MappedText}
    (h : TaggedAs origin text) : text.firstOrigin = none ∨ text.firstOrigin = origin := by
  cases text with
  | nil => exact Or.inl rfl
  | cons c rest => exact h c (List.mem_cons_self ..)

theorem IsPlain.onSlot_tagged {edit : Edit} (h : edit.IsPlain) (k : Nat)
    {origin : Option Position} {held : MappedText} (ht : TaggedAs origin held) :
    TaggedAs origin (edit.onSlot k held) := by
  cases edit with
  | replace start stop text =>
    obtain ⟨chars, rfl⟩ := h
    simp only [onSlot]
    split
    · split
      · exact (taggedAs_ofChars chars (Or.inl rfl)).append ht
      · exact ht
    · split
      · split
        · exact taggedAs_ofChars chars ht.firstOrigin
        · intro c hc
          cases hc
      · exact ht
  | insertBefore start text =>
    obtain ⟨chars, rfl⟩ := h
    simp only [onSlot]
    split
    · exact (taggedAs_ofChars chars (Or.inl rfl)).append ht
    · exact ht
  | insertAfter stop text =>
    obtain ⟨chars, rfl⟩ := h
    simp only [onSlot]
    split
    · exact ht.append (taggedAs_ofChars chars (Or.inl rfl))
    · exact ht
  | prepend text => exact ht
  | append text => exact ht

/-- Whatever happens to a slot, its characters have the origin it had before, or none. -/
theorem content_tagged {edits : List Edit} (h : ∀ edit ∈ edits, edit.IsPlain) (k : Nat)
    {origin : Option Position} {held : MappedText} (ht : TaggedAs origin held) :
    TaggedAs origin (content edits k held) := by
  induction edits generalizing held with
  | nil => exact ht
  | cons edit edits ih =>
    rw [content_cons]
    exact ih (fun e he => h e (List.mem_cons_of_mem _ he))
      ((h edit (List.mem_cons_self ..)).onSlot_tagged k ht)

theorem untagged_foldl_onHead {edits : List Edit} (h : ∀ edit ∈ edits, edit.IsPlain)
    {head : MappedText} (hh : head.Untagged) : (edits.foldl onHead head).Untagged := by
  induction edits generalizing head with
  | nil => exact hh
  | cons edit edits ih =>
    refine ih (fun e he => h e (List.mem_cons_of_mem _ he)) ?_
    have hedit := h edit (List.mem_cons_self ..)
    cases edit with
    | prepend text =>
      obtain ⟨chars, rfl⟩ := hedit
      exact (MappedText.untagged_ofChars chars).append hh
    | _ => exact hh

theorem untagged_foldl_onTail {edits : List Edit} (h : ∀ edit ∈ edits, edit.IsPlain) (size : Nat)
    {tail : MappedText} (ht : tail.Untagged) : (edits.foldl (onTail size) tail).Untagged := by
  induction edits generalizing tail with
  | nil => exact ht
  | cons edit edits ih =>
    refine ih (fun e he => h e (List.mem_cons_of_mem _ he)) ?_
    have hedit := h edit (List.mem_cons_self ..)
    cases edit with
    | replace start stop text =>
      obtain ⟨chars, rfl⟩ := hedit
      simp only [onTail]
      split
      · exact ht.append (MappedText.untagged_ofChars chars)
      · exact ht
    | append text =>
      obtain ⟨chars, rfl⟩ := hedit
      exact ht.append (MappedText.untagged_ofChars chars)
    | _ => exact ht

end Edit

/-! ### Marks -/

/-- Where a character of an edited text comes from: it is the character at `place`, or text put over
that character, or text of nobody. -/
inductive Mark where
  | kept (place : Nat)
  | copied (place : Nat)
  | made

namespace Mark

def place? : Mark → Option Nat
  | kept place => some place
  | copied place => some place
  | made => none

def kept? : Mark → Option Nat
  | kept place => some place
  | _ => none

/-- The mark is true of the character `c` of a text made from `source`. -/
def Fits (source : MappedText) (replaced : Nat → Prop) (c : MappedChar) : Mark → Prop
  | kept place => ¬ replaced place ∧ source[place]? = some c
  | copied place => replaced place ∧ ∃ d, source[place]? = some d ∧ c.origin = d.origin
  | made => c.origin = none

end Mark

/-- The marks tell where every character of `out` comes from, `out` being made of the characters of
`source` from `lo` up to `hi`. -/
structure Traced (source : MappedText) (replaced : Nat → Prop) (lo hi : Nat) (out : MappedText)
    (marks : List Mark) : Prop where
  /-- Every mark is true: characters are kept as they are, or have the origin of a replaced
  character, or have none. -/
  fits : List.Forall₂ (Mark.Fits source replaced) out marks
  kept : ∀ k, k ∈ marks.filterMap Mark.kept? ↔ (lo ≤ k ∧ k < hi) ∧ ¬ replaced k
  keptOrder : (marks.filterMap Mark.kept?).Pairwise (· < ·)
  places : ∀ k ∈ marks.filterMap Mark.place?, lo ≤ k ∧ k < hi
  /-- and they never decrease from left to right. -/
  placesOrder : (marks.filterMap Mark.place?).Pairwise (· ≤ ·)

namespace Traced

variable {source : MappedText} {replaced : Nat → Prop}

theorem append {a b c : Nat} {out out' : MappedText} {marks marks' : List Mark} (hab : a ≤ b)
    (hbc : b ≤ c) (h : Traced source replaced a b out marks)
    (h' : Traced source replaced b c out' marks') :
    Traced source replaced a c (out ++ out') (marks ++ marks') where
  fits := List.rel_append h.fits h'.fits
  kept k := by
    rw [List.filterMap_append, List.mem_append, h.kept, h'.kept]
    by_cases hr : replaced k
    · simp [hr]
    · simp only [hr, not_false_eq_true, and_true]
      omega
  keptOrder := by
    rw [List.filterMap_append, List.pairwise_append]
    refine ⟨h.keptOrder, h'.keptOrder, fun i hi j hj => ?_⟩
    have h1 := ((h.kept i).mp hi).1
    have h2 := ((h'.kept j).mp hj).1
    omega
  places k hk := by
    rw [List.filterMap_append, List.mem_append] at hk
    rcases hk with hk | hk
    · have := h.places k hk
      omega
    · have := h'.places k hk
      omega
  placesOrder := by
    rw [List.filterMap_append, List.pairwise_append]
    refine ⟨h.placesOrder, h'.placesOrder, fun i hi j hj => ?_⟩
    have h1 := h.places i hi
    have h2 := h'.places j hj
    omega

theorem of_untagged {out : MappedText} (h : out.Untagged) (lo : Nat) :
    Traced source replaced lo lo out (out.map fun _ => .made) := by
  have hkept : (out.map fun _ => Mark.made).filterMap Mark.kept? = [] := by
    simp [Mark.kept?]
  have hplace : (out.map fun _ => Mark.made).filterMap Mark.place? = [] := by
    simp [Mark.place?]
  refine ⟨?_, ?_, by rw [hkept]; exact List.Pairwise.nil, ?_, by rw [hplace]; exact List.Pairwise.nil⟩
  · rw [List.forall₂_map_right_iff, List.forall₂_same]
    exact h
  · intro k
    rw [hkept]
    simp only [List.not_mem_nil, false_iff, not_and]
    omega
  · intro k hk
    rw [hplace] at hk
    cases hk

theorem of_kept {k : Nat} {c : MappedChar} (hc : source[k]? = some c) (hk : ¬ replaced k) :
    Traced source replaced k (k + 1) [c] [.kept k] where
  fits := List.Forall₂.cons ⟨hk, hc⟩ List.Forall₂.nil
  kept j := by
    simp only [List.filterMap_cons, Mark.kept?, List.filterMap_nil, List.mem_singleton]
    constructor
    · rintro rfl
      exact ⟨by omega, hk⟩
    · intro h
      omega
  keptOrder := List.pairwise_singleton _ _
  places j hj := by
    simp only [List.filterMap_cons, Mark.place?, List.filterMap_nil, List.mem_singleton] at hj
    omega
  placesOrder := List.pairwise_singleton _ _

theorem of_replaced {k : Nat} {d : MappedChar} {out : MappedText} (hd : source[k]? = some d)
    (hk : replaced k) (hout : Edit.TaggedAs d.origin out) :
    ∃ marks, Traced source replaced k (k + 1) out marks := by
  induction out with
  | nil =>
    refine ⟨[], List.Forall₂.nil, ?_, List.Pairwise.nil, ?_, List.Pairwise.nil⟩
    · intro j
      simp only [List.filterMap_nil, List.not_mem_nil, false_iff, not_and, not_not]
      intro hj
      have hjk : j = k := by omega
      rw [hjk]
      exact hk
    · intro j hj
      cases hj
  | cons c out ih =>
    obtain ⟨marks, hm⟩ := ih fun c hc => hout c (List.mem_cons_of_mem _ hc)
    rcases hout c (List.mem_cons_self ..) with hc | hc
    · refine ⟨.made :: marks, List.Forall₂.cons hc hm.fits, hm.kept, hm.keptOrder, hm.places,
        hm.placesOrder⟩
    · refine ⟨.copied k :: marks, List.Forall₂.cons ⟨hk, d, hd, hc⟩ hm.fits, hm.kept, hm.keptOrder,
        ?_, ?_⟩
      · intro j hj
        simp only [List.filterMap_cons, Mark.place?, List.mem_cons] at hj
        rcases hj with rfl | hj
        · omega
        · exact hm.places j hj
      · simp only [List.filterMap_cons, Mark.place?, List.pairwise_cons]
        exact ⟨fun j hj => (hm.places j hj).1, hm.placesOrder⟩

theorem of_patch {edits : List Edit} (h : ∀ edit ∈ edits, edit.IsPlain) {lo hi : Nat}
    (hle : lo ≤ hi) (hhi : hi ≤ source.length) :
    ∃ marks, Traced source (Edit.Replaced edits) lo hi (Edit.patch source edits lo hi) marks := by
  obtain ⟨d, rfl⟩ : ∃ d, hi = lo + d := ⟨hi - lo, by omega⟩
  clear hle
  induction d generalizing lo with
  | zero =>
    rw [Nat.add_zero, Edit.patch_self]
    exact ⟨_, of_untagged MappedText.untagged_nil lo⟩
  | succ d ih =>
    have hassoc : lo + (d + 1) = lo + 1 + d := by omega
    rw [hassoc] at hhi ⊢
    obtain ⟨rest, hrest⟩ := @ih (lo + 1) hhi
    rw [Edit.patch_cons_slot source edits (by omega)]
    have hlt : lo < source.length := by omega
    have hget : source[lo]? = some source[lo] := List.getElem?_eq_getElem hlt
    have hcell : source.cell lo = [source[lo]] := by simp [MappedText.cell, hget]
    rw [hcell]
    have hslot : ∃ marks, Traced source (Edit.Replaced edits) lo (lo + 1)
        (Edit.content edits lo [source[lo]]) marks := by
      by_cases hr : Edit.Replaced edits lo
      · refine of_replaced hget hr (Edit.content_tagged h lo ?_)
        intro c hc
        rw [List.mem_singleton.mp hc]
        exact Or.inr rfl
      · obtain ⟨front, back, hf, hb, heq⟩ := Edit.content_kept h hr [source[lo]]
        rw [heq]
        exact ⟨_, ((of_untagged hf lo).append (Nat.le_refl _) (Nat.le_succ _)
          (of_kept hget hr)).append (Nat.le_succ _) (Nat.le_refl _) (of_untagged hb (lo + 1))⟩
    obtain ⟨marks, hmarks⟩ := hslot
    exact ⟨_, hmarks.append (by omega) (by omega) hrest⟩

theorem of_flush {edits : List Edit} (h : ∀ edit ∈ edits, edit.IsPlain) :
    ∃ marks, Traced source (Edit.Replaced edits) 0 source.length
      ((EditBuffer.ofText source).after edits).flush marks := by
  obtain ⟨marks, hm⟩ : ∃ marks, Traced source (Edit.Replaced edits) 0 source.length
      (Edit.patch source edits 0 source.length) marks :=
    of_patch h (Nat.zero_le _) (Nat.le_refl source.length)
  have hhead := Edit.untagged_foldl_onHead h MappedText.untagged_nil
  have htail := Edit.untagged_foldl_onTail h source.length MappedText.untagged_nil
  rw [EditBuffer.flush_after]
  exact ⟨_, ((of_untagged hhead 0).append (Nat.le_refl _) (Nat.zero_le _) hm).append
    (Nat.zero_le _) (Nat.le_refl _) (of_untagged htail source.length)⟩

/-! ### Origins of a traced text -/

theorem place_of_fits {c : MappedChar} {mark : Mark} {p : Position}
    (h : mark.Fits source replaced c) (hp : c.origin = some p) :
    ∃ k d, mark.place? = some k ∧ source[k]? = some d ∧ d.origin = some p := by
  cases mark with
  | kept k => exact ⟨k, c, rfl, h.2, hp⟩
  | copied k =>
    obtain ⟨_, d, hd, ho⟩ := h
    exact ⟨k, d, rfl, hd, ho ▸ hp⟩
  | made =>
    have hnone : c.origin = none := h
    rw [hnone] at hp
    cases hp

theorem place_of_mem_origins {out : MappedText} {marks : List Mark}
    (h : List.Forall₂ (Mark.Fits source replaced) out marks) {p : Position}
    (hp : p ∈ out.origins) :
    ∃ k ∈ marks.filterMap Mark.place?, ∃ d, source[k]? = some d ∧ d.origin = some p := by
  induction h with
  | nil => cases hp
  | @cons c mark out marks hfit hrest ih =>
    obtain ⟨c', hc', hcp⟩ := List.mem_filterMap.mp hp
    rcases List.mem_cons.mp hc' with rfl | hc'
    · obtain ⟨k, d, hk, hd, hdp⟩ := place_of_fits hfit hcp
      exact ⟨k, List.mem_filterMap.mpr ⟨mark, List.mem_cons_self .., hk⟩, d, hd, hdp⟩
    · obtain ⟨k, hk, hd⟩ := ih (List.mem_filterMap.mpr ⟨c', hc', hcp⟩)
      rw [List.filterMap_cons]
      split
      · exact ⟨k, hk, hd⟩
      · exact ⟨k, List.mem_cons_of_mem _ hk, hd⟩

theorem origins_subset {lo hi : Nat} {out : MappedText} {marks : List Mark}
    (h : Traced source replaced lo hi out marks) : ∀ p ∈ out.origins, p ∈ source.origins := by
  intro p hp
  obtain ⟨k, _, d, hd, hdp⟩ := place_of_mem_origins h.fits hp
  exact List.mem_filterMap.mpr ⟨d, List.mem_of_getElem? hd, hdp⟩

theorem pairwise_origins {lo hi : Nat} {out : MappedText} {marks : List Mark}
    (h : Traced source replaced lo hi out marks) {r : Position → Position → Prop}
    (hrefl : ∀ p, r p p) (hs : source.origins.Pairwise r) : out.origins.Pairwise r := by
  have hsource : ∀ (i j : Nat) (d e : MappedChar) (p q : Position), i < j → source[i]? = some d → source[j]? = some e →
      d.origin = some p → e.origin = some q → r p q := by
    intro i j d e p q hij hd he hp hq
    rw [MappedText.origins, List.pairwise_filterMap, List.pairwise_iff_getElem] at hs
    obtain ⟨hi, rfl⟩ := List.getElem?_eq_some_iff.mp hd
    obtain ⟨hj, rfl⟩ := List.getElem?_eq_some_iff.mp he
    exact hs i j hi hj hij p hp q hq
  have hfits := h.fits
  have horder := h.placesOrder
  clear h
  induction hfits with
  | nil => exact List.Pairwise.nil
  | @cons c mark out marks hfit hrest ih =>
    cases hc : c.origin with
    | none =>
      have hskip : MappedText.origins (c :: out) = MappedText.origins out :=
        List.filterMap_cons_none hc
      rw [hskip]
      refine ih (horder.sublist ?_)
      exact (List.sublist_cons_self mark marks).filterMap _
    | some p =>
      obtain ⟨k, d, hk, hd, hdp⟩ := place_of_fits hfit hc
      rw [List.filterMap_cons_some hk, List.pairwise_cons] at horder
      have hfirst : MappedText.origins (c :: out) = p :: MappedText.origins out :=
        List.filterMap_cons_some hc
      rw [hfirst, List.pairwise_cons]
      refine ⟨fun q hq => ?_, ih horder.2⟩
      obtain ⟨k', hk', e, he, heq⟩ := place_of_mem_origins hrest hq
      rcases Nat.lt_or_eq_of_le (horder.1 k' hk') with hlt | hsame
      · exact hsource k k' d e p q hlt hd he hdp heq
      · subst hsame
        have hde : d = e := Option.some.inj (hd.symm.trans he)
        have hpq : p = q := Option.some.inj (hdp.symm.trans (hde ▸ heq))
        rw [hpq]
        exact hrefl q

end Traced

end NotebookCell
