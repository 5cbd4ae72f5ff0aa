import NotebookCell.Proofs.Syntax.Layout

/-!
# Templates of edited texts

A template is an edited text in which some characters of the source are left free. The edits do not
look at characters, so that one template serves all sources which agree in the other places. Where the
edits spare a range, the template has the places of the range one behind the other.
-/

namespace NotebookCell

inductive TemplateChar where
  | known (c : Char)
  | free (place : Nat)
deriving DecidableEq

namespace Template

def fill (source : List Char) (template : List TemplateChar) : List Char :=
  template.flatMap fun
    | .known c => [c]
    | .free place => (source[place]?).toList

def places (template : List TemplateChar) : List Nat :=
  template.filterMap fun
    | .known _ => none
    | .free place => some place

variable {source : List Char} {a b : List TemplateChar}

theorem fill_append (source : List Char) (a b : List TemplateChar) :
    fill source (a ++ b) = fill source a ++ fill source b := List.flatMap_append

theorem places_append (a b : List TemplateChar) : places (a ++ b) = places a ++ places b :=
  List.filterMap_append

theorem fill_known (source chars : List Char) : fill source (chars.map .known) = chars := by
  induction chars with
  | nil => rfl
  | cons c chars ih => exact congrArg (c :: ·) ih

theorem places_known (chars : List Char) : places (chars.map .known) = [] := by
  induction chars with
  | nil => rfl
  | cons c chars ih => exact ih

theorem fill_range (source : List Char) (lo hi : Nat) :
    fill source ((List.range' lo (hi - lo)).map .free) = (source.take hi).drop lo := by
  obtain ⟨d, hd⟩ : ∃ d, hi - lo = d := ⟨_, rfl⟩
  rw [List.drop_take, hd]
  clear hd
  induction d generalizing lo with
  | zero => rfl
  | succ d ih =>
    have hrest := ih (lo + 1)
    rw [List.range'_succ, List.map_cons, fill, List.flatMap_cons]
    rw [fill] at hrest
    rw [hrest]
    cases hat : source[lo]? with
    | none =>
      have hle := List.getElem?_eq_none_iff.mp hat
      simp only [hat, List.drop_of_length_le hle, List.drop_of_length_le (Nat.le_succ_of_le hle),
        Option.toList_none, List.take_nil, List.append_nil]
    | some c =>
      obtain ⟨hlt, hc⟩ := List.getElem?_eq_some_iff.mp hat
      simp only [hat, List.drop_eq_getElem_cons hlt, List.take_succ_cons, hc, Option.toList_some,
        List.cons_append, List.nil_append]

end Template

/-! ### One slot -/

def Fragment.known (fragment : Fragment) : List TemplateChar :=
  (MappedText.chars fragment.toMapped).map .known

theorem Fragment.chars_toMapped (fragment : Fragment) (origin : Option Position) :
    (fragment.toMapped origin).chars = fragment.toMapped.chars := by
  cases fragment with
  | plain chars => simp only [toMapped, MappedText.chars_ofChars]
  | mapped text => rfl

namespace Edit

def onTemplate (place : Nat) (held : List TemplateChar) : Edit → List TemplateChar
  | .replace start stop text =>
    if start = stop then
      if start = place then text.known ++ held else held
    else if start ≤ place ∧ place < stop then
      if start = place then text.known else []
    else held
  | .insertBefore start text => if start = place then text.known ++ held else held
  | .insertAfter stop text => if stop - 1 = place then held ++ text.known else held
  | .prepend _ | .append _ => held

variable {lo hi k size : Nat} {edit : Edit} {edits : List Edit} {held : List TemplateChar}

theorem fill_onTemplate {source : List Char} {text : MappedText}
    (h : Template.fill source held = text.chars) (edit : Edit) (k : Nat) :
    Template.fill source (edit.onTemplate k held) = (edit.onSlot k text).chars := by
  have hknown : ∀ fragment : Fragment,
      Template.fill source fragment.known = fragment.toMapped.chars := fun fragment =>
    Template.fill_known source _
  cases edit with
  | replace start stop fragment =>
    simp only [onTemplate, onSlot]
    split
    · split
      · rw [Template.fill_append, MappedText.chars_append, h, hknown]
      · exact h
    · split
      · split
        · exact (hknown fragment).trans (fragment.chars_toMapped _).symm
        · rfl
      · exact h
  | insertBefore start fragment =>
    simp only [onTemplate, onSlot]
    split
    · rw [Template.fill_append, MappedText.chars_append, h, hknown]
    · exact h
  | insertAfter stop fragment =>
    simp only [onTemplate, onSlot]
    split
    · rw [Template.fill_append, MappedText.chars_append, h, hknown]
    · exact h
  | prepend fragment => exact h
  | append fragment => exact h

theorem places_onTemplate (edit : Edit) (k : Nat) (held : List TemplateChar) :
    (Template.places (edit.onTemplate k held)).Sublist (Template.places held) := by
  have hknown : ∀ fragment : Fragment, Template.places fragment.known = [] := fun fragment =>
    Template.places_known _
  cases edit with
  | replace start stop fragment =>
    simp only [onTemplate]
    split
    · split
      · rw [Template.places_append, hknown]
        exact List.Sublist.refl _
      · exact List.Sublist.refl _
    · split
      · split
        · rw [hknown]
          exact List.nil_sublist _
        · exact List.nil_sublist _
      · exact List.Sublist.refl _
  | insertBefore start fragment =>
    simp only [onTemplate]
    split
    · rw [Template.places_append, hknown]
      exact List.Sublist.refl _
    · exact List.Sublist.refl _
  | insertAfter stop fragment =>
    simp only [onTemplate]
    split
    · rw [Template.places_append, hknown, List.append_nil]
    · exact List.Sublist.refl _
  | prepend fragment => exact List.Sublist.refl _
  | append fragment => exact List.Sublist.refl _

/-- The edit puts nothing into a range, and takes nothing from it. -/
def Spares (lo hi : Nat) : Edit → Prop
  | .replace start stop _ => stop ≤ lo ∨ hi ≤ start
  | .insertBefore start _ => start ≤ lo ∨ hi ≤ start
  | .insertAfter stop _ => stop ≤ lo ∨ hi ≤ stop
  | .prepend _ | .append _ => True

/-- In a range that is spared, a slot has its place, with text around it at the ends of the range
only. -/
def Framed (lo hi k : Nat) (held : List TemplateChar) : Prop :=
  ∃ front back, held = front ++ .free k :: back ∧ (lo < k → front = []) ∧ (k + 1 < hi → back = [])

theorem Framed.step (h : Framed lo hi k held) (hlo : lo ≤ k) (hhi : k < hi) (hspares : edit.Spares lo hi) :
    Framed lo hi k (edit.onTemplate k held) := by
  obtain ⟨front, back, rfl, hfront, hback⟩ := h
  have hsame : Framed lo hi k (front ++ .free k :: back) := ⟨front, back, rfl, hfront, hback⟩
  have hbefore : ∀ known, k ≤ lo → Framed lo hi k (known ++ (front ++ .free k :: back)) := by
    intro known hle
    exact ⟨known ++ front, back, (List.append_assoc ..).symm, fun hlt => by omega, hback⟩
  cases edit with
  | replace start stop fragment =>
    simp only [Spares] at hspares
    simp only [onTemplate]
    split
    · split
      · exact hbefore _ (by omega)
      · exact hsame
    · rw [if_neg (by omega)]
      exact hsame
  | insertBefore start fragment =>
    simp only [Spares] at hspares
    simp only [onTemplate]
    split
    · exact hbefore _ (by omega)
    · exact hsame
  | insertAfter stop fragment =>
    simp only [Spares] at hspares
    simp only [onTemplate]
    split
    · refine ⟨front, back ++ fragment.known, ?_, hfront, fun hlt => by omega⟩
      rw [List.append_assoc, List.cons_append]
    · exact hsame
  | prepend fragment => exact hsame
  | append fragment => exact hsame

/-! ### All slots -/

def slotTemplate (chars : List Char) (isFree : Nat → Bool) (edits : List Edit) (k : Nat) :
    List TemplateChar :=
  edits.foldl (fun held edit => edit.onTemplate k held)
    (if isFree k then [.free k] else (chars[k]?).toList.map .known)

/-- The template of a text after a round of edits, given its characters and the places that are left
open. -/
def template (chars : List Char) (isFree : Nat → Bool) (size : Nat) (edits : List Edit) :
    List TemplateChar :=
  (MappedText.chars (edits.foldl onHead [])).map .known ++
    (List.range size).flatMap (slotTemplate chars isFree edits) ++
    (MappedText.chars (edits.foldl (onTail size) [])).map .known

theorem fill_foldl {source : List Char} {text : MappedText} (h : Template.fill source held = text.chars)
    (edits : List Edit) (k : Nat) :
    Template.fill source (edits.foldl (fun held edit => edit.onTemplate k held) held) =
      (content edits k text).chars := by
  induction edits generalizing held text with
  | nil => exact h
  | cons edit edits ih => exact ih (fill_onTemplate h edit k)

theorem places_foldl (edits : List Edit) (k : Nat) (held : List TemplateChar) :
    (Template.places (edits.foldl (fun held edit => edit.onTemplate k held) held)).Sublist
      (Template.places held) := by
  induction edits generalizing held with
  | nil => exact List.Sublist.refl _
  | cons edit edits ih => exact (ih _).trans (places_onTemplate edit k held)

theorem framed_foldl (h : Framed lo hi k held) (hlo : lo ≤ k) (hhi : k < hi)
    (hspares : ∀ edit ∈ edits, edit.Spares lo hi) :
    Framed lo hi k (edits.foldl (fun held edit => edit.onTemplate k held) held) := by
  induction edits generalizing held with
  | nil => exact h
  | cons edit edits ih =>
    exact ih (h.step hlo hhi (hspares edit List.mem_cons_self))
      fun e he => hspares e (List.mem_cons_of_mem edit he)

variable {chars : List Char} {isFree : Nat → Bool}

theorem places_template (chars : List Char) (isFree : Nat → Bool) (size : Nat) (edits : List Edit) :
    (Template.places (template chars isFree size edits)).Sublist ((List.range size).filter isFree) := by
  have hslot : ∀ k, (Template.places (slotTemplate chars isFree edits k)).Sublist
      (if isFree k then [k] else []) := by
    intro k
    refine (places_foldl edits k _).trans ?_
    split
    · exact List.Sublist.refl _
    · rw [Template.places_known]
  rw [template, Template.places_append, Template.places_append, Template.places_known,
    Template.places_known, List.nil_append, List.append_nil]
  induction List.range size with
  | nil => exact List.nil_sublist _
  | cons k slots ih =>
    rw [List.flatMap_cons, Template.places_append, List.filter_cons]
    have hhead := hslot k
    split
    · rename_i hfree
      rw [if_pos hfree] at hhead
      exact hhead.append ih
    · rename_i hno
      rw [if_neg hno] at hhead
      exact hhead.append ih

theorem flatMap_framed {slot : Nat → List TemplateChar}
    (h : ∀ k, lo ≤ k → k < hi → Framed lo hi k (slot k)) (hlo : lo ≤ k) :
    ∃ front back, (List.range' k (hi - k)).flatMap slot =
      front ++ (List.range' k (hi - k)).map .free ++ back ∧ (lo < k → front = []) := by
  obtain ⟨d, hd⟩ : ∃ d, hi - k = d := ⟨_, rfl⟩
  rw [hd]
  -- over the slots from `k` on: the text in front of the later ones is empty, so they join up
  induction d generalizing k with
  | zero => exact ⟨[], [], rfl, fun _ => rfl⟩
  | succ d ih =>
    obtain ⟨front, between, hslot, hfront, hbetween⟩ := h k hlo (by omega)
    obtain ⟨rest, back, hrest, hnone⟩ := @ih (k + 1) (by omega) (by omega)
    rw [hnone (by omega), List.nil_append] at hrest
    rw [List.range'_succ, List.flatMap_cons, hrest, hslot, List.map_cons]
    by_cases hlast : k + 1 < hi
    · refine ⟨front, back, ?_, hfront⟩
      rw [hbetween hlast]
      simp only [List.append_assoc, List.cons_append, List.nil_append]
    · refine ⟨front, between ++ back, ?_, hfront⟩
      have hd : d = 0 := by omega
      rw [hd]
      simp only [List.range'_zero, List.map_nil, List.append_assoc, List.cons_append, List.nil_append]

theorem range_infix_template (hspares : ∀ edit ∈ edits, edit.Spares lo hi) (hhi : hi ≤ size)
    (hfree : ∀ k, lo ≤ k → k < hi → isFree k = true) :
    (List.range' lo (hi - lo)).map .free <:+: template chars isFree size edits := by
  by_cases hempty : hi ≤ lo
  · rw [Nat.sub_eq_zero_of_le hempty]
    exact List.nil_infix
  · have hframed : ∀ k, lo ≤ k → k < hi → Framed lo hi k (slotTemplate chars isFree edits k) := by
      intro k hlo hlt
      have hstart : Framed lo hi k [.free k] := ⟨[], [], rfl, fun _ => rfl, fun _ => rfl⟩
      rw [slotTemplate, hfree k hlo hlt, if_pos rfl]
      exact framed_foldl hstart hlo hlt hspares
    obtain ⟨front, back, hmiddle, _⟩ := flatMap_framed hframed (Nat.le_refl lo)
    have hsplit : List.range size =
        List.range' 0 lo ++ (List.range' lo (hi - lo) ++ List.range' hi (size - hi)) := by
      have hback := @List.range'_append_1 lo (hi - lo) (size - hi)
      have hfront := @List.range'_append_1 0 lo (hi - lo + (size - hi))
      have hlast : lo + (hi - lo) = hi := by omega
      have hsize : lo + (hi - lo + (size - hi)) = size := by omega
      rw [hlast] at hback
      rw [Nat.zero_add, hsize] at hfront
      rw [hback, hfront, List.range_eq_range']
    rw [template, hsplit, List.flatMap_append, List.flatMap_append, hmiddle]
    exact (List.infix_append front _ back).trans ((List.prefix_append _ _).isInfix.trans
      ((List.suffix_append _ _).isInfix.trans (List.infix_append _ _ _)))

theorem fill_template {source : MappedText} (hsingle : ∀ c ∈ source, c.IsSingle)
    (hknown : ∀ k, isFree k = false → chars[k]? = source.chars[k]?) (edits : List Edit) :
    Template.fill source.chars (template chars isFree source.length edits) =
      ((EditBuffer.ofText source).after edits).flush.chars := by
  have hcell : ∀ k, (source.cell k).chars = (source.chars[k]?).toList := by
    intro k
    rw [← source.segment_succ, MappedText.chars_segment hsingle, List.drop_take, Nat.add_sub_cancel_left,
      List.take_one, List.head?_drop]
  have hslot : ∀ k, Template.fill source.chars (slotTemplate chars isFree edits k) =
      (content edits k (source.cell k)).chars := by
    intro k
    refine fill_foldl ?_ edits k
    rw [hcell]
    by_cases hfree : isFree k = true
    · rw [if_pos hfree]
      exact List.append_nil _
    · rw [if_neg hfree, Template.fill_known, hknown k (Bool.eq_false_iff.mpr hfree)]
  have hslots : ∀ slots : List Nat, Template.fill source.chars
      (slots.flatMap (slotTemplate chars isFree edits)) =
        MappedText.chars (slots.flatMap fun k => content edits k (source.cell k)) := by
    intro slots
    induction slots with
    | nil => rfl
    | cons k slots ih =>
      rw [List.flatMap_cons, List.flatMap_cons, Template.fill_append, MappedText.chars_append, hslot, ih]
  rw [EditBuffer.flush_after, template, Template.fill_append, Template.fill_append,
    Template.fill_known, Template.fill_known, hslots, MappedText.chars_append, MappedText.chars_append,
    patch, Nat.sub_zero, List.range_eq_range']

end Edit

end NotebookCell
