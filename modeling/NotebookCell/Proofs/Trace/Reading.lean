import Mathlib.Data.List.TakeWhile
import NotebookCell.Proofs.Trace.References

/-!
# Reading a trace

A trace is read from left to right. Where a reference begins, the longest one that stands there is
taken, and reading goes on behind it; anywhere else one character is taken. There is one way to read a
text so, and the parts of the text are what it gives.
-/

namespace NotebookCell

/-! ### References as they are written -/

def IsNumber (digits : List Char) : Prop := digits ≠ [] ∧ ∀ c ∈ digits, Text.isDigit c = true

namespace Reference

/-- All numbers have digits, and a column only comes with a line. -/
structure WellFormed (reference : Reference) : Prop where
  id : IsNumber reference.id
  line : ∀ digits ∈ reference.line, IsNumber digits
  column : ∀ digits ∈ reference.column, IsNumber digits
  column_line : reference.line = none → reference.column = none

/-- The reference is the longest one with which the text begins. -/
structure Begins (reference : Reference) (text : List Char) : Prop where
  wellFormed : reference.WellFormed
  starts : reference.text <+: text
  longest : ∀ other : Reference, other.WellFormed → other.text <+: text →
    other.text.length ≤ reference.text.length

end Reference

/-! ### Numbers in front of a text -/

def NoDigit (rest : List Char) : Prop := ∀ c ∈ rest.head?, Text.isDigit c = false

theorem noDigit_colonText (part : Option (List Char)) : NoDigit (colonText part) := by
  intro c hc
  cases part <;> cases hc
  rfl

theorem number_starts {digits own rest after : List Char} (hdigits : ∀ c ∈ digits, Text.isDigit c = true)
    (hown : ∀ c ∈ own, Text.isDigit c = true) (hrest : NoDigit rest) (hafter : NoDigit after)
    (h : digits ++ rest <+: own ++ after) :
    digits = own ∧ rest <+: after ∨ rest = [] ∧ digits.length < own.length := by
  induction digits generalizing own with
  | nil =>
    cases own with
    | nil => exact Or.inl ⟨rfl, h⟩
    | cons d own =>
      refine Or.inr ⟨?_, Nat.zero_lt_succ _⟩
      cases rest with
      | nil => rfl
      | cons c rest =>
        obtain ⟨rfl, -⟩ := List.cons_prefix_cons.mp h
        have hc := hown c List.mem_cons_self
        rw [hrest c rfl] at hc
        cases hc
  | cons c digits ih =>
    have hc := hdigits c List.mem_cons_self
    cases own with
    | nil =>
      cases after with
      | nil => exact absurd (List.prefix_nil.mp h) (List.cons_ne_nil _ _)
      | cons d after =>
        obtain ⟨rfl, -⟩ := List.cons_prefix_cons.mp h
        rw [hafter c rfl] at hc
        cases hc
    | cons d own =>
      obtain ⟨rfl, hbehind⟩ := List.cons_prefix_cons.mp h
      rcases ih (List.forall_mem_cons.mp hdigits).2 (List.forall_mem_cons.mp hown).2 hbehind with
        ⟨rfl, hrest⟩ | ⟨hnil, hlt⟩
      · exact Or.inl ⟨rfl, hrest⟩
      · exact Or.inr ⟨hnil, Nat.succ_lt_succ hlt⟩

theorem exists_digits (text : List Char) :
    ∃ digits rest, text.takeWhile Text.isDigit = digits ∧ text = digits ++ rest ∧
      (∀ c ∈ digits, Text.isDigit c = true) ∧ NoDigit rest := by
  refine ⟨_, text.dropWhile Text.isDigit, rfl, List.takeWhile_append_dropWhile.symm,
    fun c hc => List.mem_takeWhile_imp hc, ?_⟩
  intro c hc
  have hhead := List.head?_dropWhile_not Text.isDigit text
  rw [hc] at hhead
  simpa using hhead

/-- What follows the number behind the colon with which a text may begin. -/
def behindColon (text : List Char) : List Char := text.drop (colonText (colonDigits? text)).length

theorem colonDigits?_cases (text : List Char) :
    (colonDigits? text = none ∧ ∀ digits rest, IsNumber digits → ¬((':' :: (digits ++ rest)) <+: text)) ∨
      ∃ digits, colonDigits? text = some digits ∧ IsNumber digits ∧ NoDigit (behindColon text) ∧
        text = ':' :: (digits ++ behindColon text) := by
  by_cases hcolon : ∃ behind, text = ':' :: behind
  · obtain ⟨behind, rfl⟩ := hcolon
    obtain ⟨digits, rest, htake, rfl, hdigits, hrest⟩ := exists_digits behind
    have hread : colonDigits? (':' :: (digits ++ rest)) =
        if digits.isEmpty then none else some digits := by
      rw [colonDigits?, htake]
    cases digits with
    | nil =>
      refine Or.inl ⟨hread, fun number rest' hnumber hstarts => ?_⟩
      obtain ⟨c, number, rfl⟩ := List.exists_cons_of_ne_nil hnumber.1
      obtain ⟨-, hstarts⟩ := List.cons_prefix_cons.mp hstarts
      have hhead : rest.head? = some c := by
        obtain ⟨after, rfl⟩ := hstarts
        rfl
      have hc := hnumber.2 c List.mem_cons_self
      rw [hrest c hhead] at hc
      cases hc
    | cons c digits =>
      have hbehind : behindColon (':' :: (c :: digits ++ rest)) = rest := by
        rw [behindColon, hread]
        exact List.drop_left
      exact Or.inr ⟨c :: digits, hread, ⟨List.cons_ne_nil c digits, hdigits⟩, hbehind.symm ▸ hrest,
        by rw [hbehind]⟩
  · refine Or.inl ⟨?_, fun digits rest _ hstarts => ?_⟩
    · unfold colonDigits?
      split
      · exact absurd ⟨_, rfl⟩ hcolon
      · rfl
    · obtain ⟨after, rfl⟩ := hstarts
      exact hcolon ⟨_, rfl⟩

theorem colonText_append_behindColon (text : List Char) :
    colonText (colonDigits? text) ++ behindColon text = text := by
  rcases colonDigits?_cases text with ⟨hread, -⟩ | ⟨digits, hread, -, -, htext⟩
  · rw [behindColon, hread]
    rfl
  · rw [hread]
    exact htext.symm

theorem colonText_starts {part : Option (List Char)} {rest text : List Char}
    (hpart : ∀ digits ∈ part, IsNumber digits) (hrest : NoDigit rest) (hnone : part = none → rest = [])
    (h : colonText part ++ rest <+: text) :
    part = colonDigits? text ∧ rest <+: behindColon text ∨
      rest = [] ∧ (colonText part).length < (colonText (colonDigits? text)).length := by
  rcases colonDigits?_cases text with ⟨hread, hfree⟩ | ⟨own, hread, hown, hbehind, htext⟩
  · cases part with
    | none => exact Or.inl ⟨hread.symm, hnone rfl ▸ List.nil_prefix⟩
    | some digits => exact absurd h (hfree digits rest (hpart digits rfl))
  · rw [hread]
    cases part with
    | none => exact Or.inr ⟨hnone rfl, Nat.zero_lt_succ _⟩
    | some digits =>
      rw [htext] at h
      obtain ⟨-, hstarts⟩ := List.cons_prefix_cons.mp h
      rcases number_starts (hpart digits rfl).2 hown.2 hrest hbehind hstarts with
        ⟨rfl, hafter⟩ | ⟨hnil, hlt⟩
      · exact Or.inl ⟨rfl, hafter⟩
      · exact Or.inr ⟨hnil, Nat.succ_lt_succ hlt⟩

/-! ### The reference in front of a text -/

/-- The reference whose id is `id` and which takes as much of the text behind it as it can. -/
def Reference.reaching (id rest : List Char) : Reference where
  id := id
  line := colonDigits? rest
  column := colonDigits? (behindColon rest)

theorem referenceAt?_number {id rest : List Char} (hid : IsNumber id) (hrest : NoDigit rest) :
    referenceAt? (referenceStart ++ (id ++ rest)) = some (.reaching id rest) := by
  have hne : id.isEmpty = false := List.isEmpty_eq_false_iff.mpr hid.1
  have htake : (id ++ rest).takeWhile Text.isDigit = id := Text.takeWhile_isDigit_append hid.2 hrest
  unfold referenceAt? Reference.reaching behindColon
  rw [afterStart?_append]
  simp only [Option.bind_eq_bind, Option.bind_some, htake, hne, List.drop_left]
  rcases colonDigits?_cases rest with ⟨hread, -⟩ | ⟨digits, hread, -⟩
  · simp [hread, colonText]
  · simp [hread, colonText]

namespace Reference

variable {id rest : List Char}

theorem wellFormed_reaching (hid : IsNumber id) : (reaching id rest).WellFormed := by
  have hread : ∀ text, ∀ digits ∈ colonDigits? text, IsNumber digits := by
    intro text digits hdigits
    rcases colonDigits?_cases text with ⟨hnone, -⟩ | ⟨own, hown, hnumber, -⟩
    · rw [hnone] at hdigits
      cases hdigits
    · rw [hown] at hdigits
      exact Option.some.inj hdigits ▸ hnumber
  refine ⟨hid, hread rest, hread _, fun hline => ?_⟩
  change colonDigits? rest = none at hline
  change colonDigits? (behindColon rest) = none
  rw [behindColon, hline]
  exact hline

theorem reaching_starts : (reaching id rest).text <+: referenceStart ++ (id ++ rest) := by
  refine ⟨behindColon (behindColon rest), ?_⟩
  rw [text_eq]
  simp only [reaching, List.append_assoc, colonText_append_behindColon]

theorem eq_reaching_or_shorter (hid : IsNumber id) (hrest : NoDigit rest) {other : Reference}
    (hother : other.WellFormed) (h : other.text <+: referenceStart ++ (id ++ rest)) :
    other = reaching id rest ∨ other.text.length < (reaching id rest).text.length := by
  have hbehind : NoDigit (colonText other.line ++ colonText other.column) := by
    cases hline : other.line with
    | none =>
      rw [hother.column_line hline]
      exact noDigit_colonText none
    | some digits => exact noDigit_colonText (some digits)
  have hcolumn : other.line = none → colonText other.column = [] := fun hline => by
    rw [hother.column_line hline]
    rfl
  rw [text_eq, List.prefix_append_right_inj] at h
  simp only [text_eq other, text_eq (reaching id rest), List.length_append]
  -- number by number: the two agree so far, or the other one ends here
  rcases number_starts hother.id.2 hid.2 hbehind hrest h with ⟨hsame, h⟩ | ⟨hnil, hlt⟩
  · rcases colonText_starts hother.line (noDigit_colonText other.column) hcolumn h with
      ⟨hline, h⟩ | ⟨hnil, hlt⟩
    · rw [← List.append_nil (colonText other.column)] at h
      rcases colonText_starts hother.column (noDigit_colonText none) (fun _ => rfl) h with
        ⟨hcol, -⟩ | ⟨-, hlt⟩
      · left
        cases other
        simp only [reaching, mk.injEq]
        exact ⟨hsame, hline, hcol⟩
      · right
        simp only [reaching, hsame, hline]
        omega
    · right
      simp only [reaching, hsame, hnil, List.length_nil]
      omega
  · right
    have hlength := congrArg List.length hnil
    rw [List.length_append, List.length_nil] at hlength
    simp only [reaching]
    omega

theorem begins_reaching (hid : IsNumber id) (hrest : NoDigit rest) :
    (reaching id rest).Begins (referenceStart ++ (id ++ rest)) where
  wellFormed := wellFormed_reaching hid
  starts := reaching_starts
  longest other hother h := by
    rcases eq_reaching_or_shorter hid hrest hother h with rfl | hlt
    · exact Nat.le_refl _
    · exact Nat.le_of_lt hlt

end Reference

theorem referenceAt?_cases (text : List Char) :
    (referenceAt? text = none ∧ ∀ other : Reference, other.WellFormed → ¬other.text <+: text) ∨
      ∃ id rest, IsNumber id ∧ NoDigit rest ∧ text = referenceStart ++ (id ++ rest) ∧
        referenceAt? text = some (.reaching id rest) := by
  by_cases hstart : referenceStart <+: text
  · obtain ⟨behind, rfl⟩ := hstart
    obtain ⟨id, rest, htake, rfl, hid, hrest⟩ := exists_digits behind
    by_cases hnil : id = []
    · subst hnil
      refine Or.inl ⟨?_, fun other hother h => ?_⟩
      · unfold referenceAt?
        rw [afterStart?_append]
        simp only [Option.bind_eq_bind, Option.bind_some, htake]
        rfl
      · rw [Reference.text_eq, List.prefix_append_right_inj] at h
        obtain ⟨c, digits, hdigits⟩ := List.exists_cons_of_ne_nil hother.id.1
        rw [hdigits] at h
        obtain ⟨after, rfl⟩ := h
        have hc := hother.id.2 c (by rw [hdigits]; exact List.mem_cons_self)
        rw [hrest c rfl] at hc
        cases hc
    · exact Or.inr ⟨id, rest, ⟨hnil, hid⟩, hrest, rfl, referenceAt?_number ⟨hnil, hid⟩ hrest⟩
  · refine Or.inl ⟨referenceAt?_eq_none hstart, fun other _ h => hstart ?_⟩
    rw [Reference.text_eq] at h
    exact (List.prefix_append _ _).trans h

theorem referenceAt?_eq_none_iff {text : List Char} :
    referenceAt? text = none ↔ ∀ other : Reference, other.WellFormed → ¬other.text <+: text := by
  rcases referenceAt?_cases text with ⟨hnone, hfree⟩ | ⟨id, rest, hid, hrest, rfl, hread⟩
  · exact iff_of_true hnone hfree
  · refine iff_of_false (by rw [hread]; exact nofun) fun hfree => ?_
    exact hfree _ (Reference.wellFormed_reaching hid) Reference.reaching_starts

theorem referenceAt?_eq_some_iff {text : List Char} {reference : Reference} :
    referenceAt? text = some reference ↔ reference.Begins text := by
  rcases referenceAt?_cases text with ⟨hnone, hfree⟩ | ⟨id, rest, hid, hrest, rfl, hread⟩
  · refine iff_of_false (by rw [hnone]; exact nofun) fun h => ?_
    exact hfree reference h.wellFormed h.starts
  · have hown := Reference.begins_reaching hid hrest
    rw [hread, Option.some.injEq]
    constructor
    · rintro rfl
      exact hown
    · intro h
      have hle := h.longest _ hown.wellFormed hown.starts
      rcases Reference.eq_reaching_or_shorter hid hrest h.wellFormed h.starts with rfl | hlt
      · rfl
      · omega

/-! ### The parts of a text -/

def TracePart.text : TracePart → List Char
  | .plain c => [c]
  | .reference found => found.text

def TracePart.Leads (text : List Char) : TracePart → Prop
  | .plain c => text.head? = some c ∧ ∀ other : Reference, other.WellFormed → ¬other.text <+: text
  | .reference found => found.Begins text

/-- Reading the text from left to right gives the parts. -/
inductive ReadAs : List Char → List TracePart → Prop where
  | nil : ReadAs [] []
  | cons {part : TracePart} {rest : List Char} {parts : List TracePart}
      (leads : part.Leads (part.text ++ rest)) (reads : ReadAs rest parts) :
      ReadAs (part.text ++ rest) (part :: parts)

theorem readAs_traceParts (text : List Char) : ReadAs text (traceParts text) := by
  -- a reference takes many characters at once, so the induction is on the length
  induction hlength : text.length using Nat.strongRecOn generalizing text with
  | ind length ih =>
    cases text with
    | nil => exact .nil
    | cons c rest =>
      cases hread : referenceAt? (c :: rest) with
      | none =>
        rw [traceParts_plain hread]
        have hrest : ReadAs rest (traceParts rest) := by
          refine ih rest.length ?_ rest rfl
          rw [← hlength]
          exact Nat.lt_succ_self _
        have hleads : (TracePart.plain c).Leads ((TracePart.plain c).text ++ rest) :=
          ⟨rfl, referenceAt?_eq_none_iff.mp hread⟩
        exact .cons hleads hrest
      | some reference =>
        have hbegins := referenceAt?_eq_some_iff.mp hread
        obtain ⟨behind, htext⟩ := hbegins.starts
        rw [← htext] at hread hbegins hlength ⊢
        rw [traceParts_reference hread]
        have hrest : ReadAs behind (traceParts behind) := by
          refine ih behind.length ?_ behind rfl
          have hpos := List.length_pos_iff.mpr (Reference.text_ne_nil reference)
          rw [List.length_append] at hlength
          omega
        have hleads : (TracePart.reference reference).Leads ((TracePart.reference reference).text ++ behind) :=
          hbegins
        exact .cons hleads hrest

theorem readAs_iff {text : List Char} {parts : List TracePart} :
    ReadAs text parts ↔ parts = traceParts text := by
  constructor
  · intro h
    induction h with
    | nil => rfl
    | @cons part rest parts leads _ ih =>
      cases part with
      | plain c =>
        have hfree := referenceAt?_eq_none_iff.mpr leads.2
        exact ih ▸ (traceParts_plain hfree).symm
      | reference reference =>
        have hread := referenceAt?_eq_some_iff.mpr leads
        exact ih ▸ (traceParts_reference hread).symm
  · rintro rfl
    exact readAs_traceParts text

theorem ReadAs.text_eq {text : List Char} {parts : List TracePart} (h : ReadAs text parts) :
    parts.flatMap TracePart.text = text := by
  induction h with
  | nil => rfl
  | cons _ _ ih => rw [List.flatMap_cons, ih]

theorem ReadAs.wellFormed {text : List Char} {parts : List TracePart} (h : ReadAs text parts)
    {reference : Reference} (hmem : .reference reference ∈ parts) : reference.WellFormed := by
  induction h with
  | nil => cases hmem
  | cons leads _ ih =>
    rcases List.mem_cons.mp hmem with rfl | hmem
    · exact Reference.Begins.wellFormed leads
    · exact ih hmem

end NotebookCell
