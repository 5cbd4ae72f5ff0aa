import Mathlib.Data.List.TakeWhile
import NotebookCell.Proofs.Text.Numerals
import NotebookCell.Proofs.Text.Pieces
import NotebookCell.Proofs.Trace.References
import NotebookCell.Trace.Truncate

/-!
# Where a trace ends

A trace keeps its lines up to the first one behind the message that holds the name of a wrapper
function. That line stays as it is but for the leftmost name in it, which becomes a label. No name can
be made of the label and what is next to it, so a second truncation finds only what stands behind the
label.
-/

namespace NotebookCell

/-! ### Wrapper names in a line -/

/-- The text is the name of some wrapper function. -/
def IsWrapperName (name : List Char) : Prop :=
  ∃ digits, digits ≠ [] ∧ (∀ c ∈ digits, Text.isDigit c = true) ∧
    name = "__cell_".toList ++ digits ++ "__".toList

/-- Somewhere in the line stands the name of a wrapper function. -/
def HoldsWrapperName (line : List Char) : Prop := ∃ name, IsWrapperName name ∧ name <:+: line

/-- The line is made of `before`, `name` and `after`, and of all wrapper names in it `name` begins
first. -/
structure LeftmostName (line before name after : List Char) : Prop where
  line_eq : line = before ++ name ++ after
  isName : IsWrapperName name
  leftmost : ∀ before' name' after', line = before' ++ name' ++ after' → IsWrapperName name' →
    before.length ≤ before'.length

theorem IsWrapperName.head? {name : List Char} (h : IsWrapperName name) : name.head? = some '_' := by
  obtain ⟨digits, -, -, rfl⟩ := h
  rfl

theorem IsWrapperName.ne_nil {name : List Char} (h : IsWrapperName name) : name ≠ [] := by
  rintro rfl
  cases h.head?

theorem IsWrapperName.mem {name : List Char} (h : IsWrapperName name) {c : Char} (hc : c ∈ name) :
    c ∈ "__cell_".toList ∨ Text.isDigit c = true := by
  obtain ⟨digits, -, hdigits, rfl⟩ := h
  rcases List.mem_append.mp hc with hc | hc
  · exact (List.mem_append.mp hc).imp_right (hdigits c)
  · have hunderscore : c = '_' := by simpa using hc
    rw [hunderscore]
    exact Or.inl (by simp)

theorem afterStart?_eq_some_iff {start text rest : List Char} :
    afterStart? start text = some rest ↔ text = start ++ rest := by
  constructor
  · intro h
    by_cases hstart : start <+: text
    · obtain ⟨own, rfl⟩ := hstart
      rw [afterStart?_append] at h
      rw [Option.some.inj h]
    · rw [afterStart?_eq_none hstart] at h
      cases h
  · rintro rfl
    exact afterStart?_append start rest

theorem afterWrapperName?_eq_some_iff {text after : List Char} :
    afterWrapperName? text = some after ↔ ∃ name, IsWrapperName name ∧ text = name ++ after := by
  constructor
  · intro h
    unfold afterWrapperName? at h
    obtain ⟨rest, hrest, h⟩ := Option.bind_eq_some_iff.mp h
    split at h
    · cases h
    · rename_i hdigits
      have hne : rest.takeWhile Text.isDigit ≠ [] := fun hnil => hdigits (by rw [hnil]; rfl)
      have hall : ∀ c ∈ rest.takeWhile Text.isDigit, Text.isDigit c = true :=
        fun c hc => List.mem_takeWhile_imp hc
      refine ⟨_, ⟨_, hne, hall, rfl⟩, ?_⟩
      rw [afterStart?_eq_some_iff.mp hrest, List.append_assoc, List.append_assoc,
        ← afterStart?_eq_some_iff.mp h, List.takeWhile_append_dropWhile]
  · rintro ⟨name, ⟨digits, hne, hall, rfl⟩, rfl⟩
    have hstop : ∀ c ∈ ("__".toList ++ after).head?, Text.isDigit c = false := by
      intro c hc
      cases hc
      rfl
    have htake := Text.takeWhile_isDigit_append hall hstop
    have hdrop : (digits ++ ("__".toList ++ after)).dropWhile Text.isDigit = "__".toList ++ after := by
      rw [List.dropWhile_append_of_pos hall]
      rfl
    have hdigits : ¬digits.isEmpty = true := fun h => hne (List.isEmpty_iff.mp h)
    unfold afterWrapperName?
    rw [List.append_assoc, List.append_assoc, afterStart?_append]
    simp only [Option.bind_eq_bind, Option.bind_some, htake, hdrop, if_neg hdigits, afterStart?_append]

theorem holdsWrapperName_cons_iff {c : Char} {rest : List Char} :
    HoldsWrapperName (c :: rest) ↔
      (afterWrapperName? (c :: rest)).isSome ∨ HoldsWrapperName rest := by
  constructor
  · rintro ⟨name, hname, hin⟩
    rcases List.infix_cons_iff.mp hin with ⟨after, hstart⟩ | hin
    · exact Or.inl (Option.isSome_iff_exists.mpr
        ⟨after, afterWrapperName?_eq_some_iff.mpr ⟨name, hname, hstart.symm⟩⟩)
    · exact Or.inr ⟨name, hname, hin⟩
  · rintro (hhere | ⟨name, hname, hin⟩)
    · obtain ⟨after, hafter⟩ := Option.isSome_iff_exists.mp hhere
      obtain ⟨name, hname, htext⟩ := afterWrapperName?_eq_some_iff.mp hafter
      exact ⟨name, hname, htext ▸ (List.prefix_append name after).isInfix⟩
    · exact ⟨name, hname, hin.trans (List.suffix_cons c rest).isInfix⟩

theorem not_holdsWrapperName_nil : ¬HoldsWrapperName [] := by
  rintro ⟨name, hname, hin⟩
  exact hname.ne_nil (List.eq_nil_of_infix_nil hin)

theorem relabelLine?_eq_none_iff {line : List Char} :
    relabelLine? line = none ↔ ¬HoldsWrapperName line := by
  induction line with
  | nil => exact iff_of_true rfl not_holdsWrapperName_nil
  | cons c rest ih =>
    rw [relabelLine?, holdsWrapperName_cons_iff]
    cases afterWrapperName? (c :: rest) with
    | some after => simp
    | none => simp [ih]

theorem exists_leftmostName {line relabelled : List Char} (h : relabelLine? line = some relabelled) :
    ∃ before name after, LeftmostName line before name after ∧
      relabelled = before ++ topLevelLabel ++ after := by
  induction line generalizing relabelled with
  | nil => cases h
  | cons c rest ih =>
    rw [relabelLine?] at h
    cases hhere : afterWrapperName? (c :: rest) with
    | some after =>
      rw [hhere] at h
      obtain ⟨name, hname, hline⟩ := afterWrapperName?_eq_some_iff.mp hhere
      exact ⟨[], name, after, ⟨hline, hname, fun _ _ _ _ _ => Nat.zero_le _⟩, (Option.some.inj h).symm⟩
    | none =>
      rw [hhere] at h
      obtain ⟨later, hlater, rfl⟩ := Option.map_eq_some_iff.mp h
      obtain ⟨before, name, after, ⟨rfl, hname, hleftmost⟩, rfl⟩ := ih hlater
      refine ⟨c :: before, name, after, ⟨rfl, hname, ?_⟩, rfl⟩
      intro before' name' after' hline hname'
      cases before' with
      | nil =>
        have hsome := afterWrapperName?_eq_some_iff.mpr ⟨name', hname', hline⟩
        rw [hhere] at hsome
        cases hsome
      | cons d before' =>
        exact Nat.succ_le_succ (hleftmost before' name' after' (List.cons.inj hline).2 hname')

/-! ### The label -/

/-- What is in a text but does not hold a character of it stands on one side of that character. -/
theorem infix_of_infix_append_cons {α : Type} {part before after : List α} {c : α} (hc : c ∉ part)
    (h : part <:+: before ++ c :: after) : part <:+: before ∨ part <:+: after := by
  have hstart : ∀ {start}, start <+: c :: after → (∀ d ∈ start, d ∈ part) → start = [] := by
    intro start hstart hmem
    cases start with
    | nil => rfl
    | cons d start =>
      obtain ⟨rfl, -⟩ := List.cons_prefix_cons.mp hstart
      exact absurd (hmem d List.mem_cons_self) hc
  rcases List.infix_append_iff.mp h with hin | hin | ⟨front, back, rfl, hfront, hback⟩
  · exact Or.inl hin
  · rcases List.infix_cons_iff.mp hin with hin | hin
    · rw [hstart hin fun d hd => hd]
      exact Or.inl (List.nil_infix)
    · exact Or.inr hin
  · rw [hstart hback fun d hd => List.mem_append_right front hd, List.append_nil]
    exact Or.inl hfront.isInfix

theorem holdsWrapperName_relabelled_iff {line before name after : List Char}
    (h : LeftmostName line before name after) :
    HoldsWrapperName (before ++ topLevelLabel ++ after) ↔ HoldsWrapperName after := by
  constructor
  · rintro ⟨other, hother, hin⟩
    have hfree : ∀ c, c ∉ "__cell_".toList → Text.isDigit c = false → c ∉ other := by
      intro c hmark hdigit hc
      rcases hother.mem hc with hc | hc
      · exact hmark hc
      · rw [hdigit] at hc
        cases hc
    have hlabel : before ++ topLevelLabel ++ after =
        before ++ '<' :: ("top level".toList ++ '>' :: after) := by
      rw [List.append_assoc]
      rfl
    rw [hlabel] at hin
    rcases infix_of_infix_append_cons (hfree '<' (by decide) (by decide)) hin with hin | hin
    · -- in front of the leftmost name there is none
      obtain ⟨front, back, hbefore⟩ := hin
      have hle := h.leftmost front other (back ++ name ++ after)
        (by rw [h.line_eq, ← hbefore]; simp only [List.append_assoc]) hother
      have hpos := List.length_pos_iff.mpr hother.ne_nil
      rw [← hbefore, List.length_append, List.length_append] at hle
      omega
    · rcases infix_of_infix_append_cons (hfree '>' (by decide) (by decide)) hin with hin | hin
      · have hunderscore : '_' ∈ other := List.mem_of_mem_head? hother.head?
        exact absurd (hin.subset hunderscore) (by decide)
      · exact ⟨other, hother, hin⟩
  · rintro ⟨other, hother, hin⟩
    exact ⟨other, hother, hin.trans (List.suffix_append _ after).isInfix⟩

/-! ### The lines of a truncated trace -/

/-- The line is the first behind the message that holds a wrapper name. -/
structure FirstCellLine (lines : List (List Char)) (place : Nat) (line : List Char) : Prop where
  behindMessage : 1 ≤ place
  here : lines[place]? = some line
  holds : HoldsWrapperName line
  first : ∀ earlier other, 1 ≤ earlier → earlier < place → lines[earlier]? = some other →
    ¬HoldsWrapperName other

theorem truncateFrames?_eq_none_iff {lines : List (List Char)} :
    truncateFrames? lines = none ↔ ∀ line ∈ lines, ¬HoldsWrapperName line := by
  induction lines with
  | nil => simp [truncateFrames?]
  | cons line lines ih =>
    rw [truncateFrames?, List.forall_mem_cons, ← relabelLine?_eq_none_iff, ← ih]
    cases relabelLine? line <;> simp

theorem exists_of_truncateFrames? {lines kept : List (List Char)} (h : truncateFrames? lines = some kept) :
    ∃ passed line rest relabelled, lines = passed ++ line :: rest ∧
      (∀ other ∈ passed, ¬HoldsWrapperName other) ∧ relabelLine? line = some relabelled ∧
      kept = passed ++ [relabelled] := by
  induction lines generalizing kept with
  | nil => cases h
  | cons line lines ih =>
    rw [truncateFrames?] at h
    cases hline : relabelLine? line with
    | some relabelled =>
      rw [hline] at h
      exact ⟨[], line, lines, relabelled, rfl, by simp, hline, (Option.some.inj h).symm⟩
    | none =>
      rw [hline] at h
      obtain ⟨later, hlater, rfl⟩ := Option.map_eq_some_iff.mp h
      obtain ⟨passed, found, rest, relabelled, rfl, hpassed, hfound, rfl⟩ := ih hlater
      refine ⟨line :: passed, found, rest, relabelled, rfl, ?_, hfound, rfl⟩
      exact List.forall_mem_cons.mpr ⟨relabelLine?_eq_none_iff.mp hline, hpassed⟩

/-- A trace without a wrapper name behind its message is not cut; any other ends with the first line
that holds one. -/
theorem truncateStack_cases (stack : List Char) :
    (∀ line ∈ (Text.splitLines stack).tail, ¬HoldsWrapperName line) ∧ truncateStack stack = stack ∨
      ∃ place line before name after, FirstCellLine (Text.splitLines stack) place line ∧
        LeftmostName line before name after ∧
        Text.splitLines (truncateStack stack) =
          (Text.splitLines stack).take place ++ [before ++ topLevelLabel ++ after] := by
  have hfree : ∀ line ∈ Text.splitLines stack, '\n' ∉ line :=
    fun _ => Text.not_mem_of_mem_splitOnChar
  unfold truncateStack
  generalize Text.splitLines stack = lines at hfree
  cases lines with
  | nil => exact Or.inl ⟨by simp, rfl⟩
  | cons message frames =>
    cases hframes : truncateFrames? frames with
    | none => exact Or.inl ⟨truncateFrames?_eq_none_iff.mp hframes, by simp only [hframes]⟩
    | some kept =>
      obtain ⟨passed, line, rest, relabelled, rfl, hpassed, hline, rfl⟩ :=
        exists_of_truncateFrames? hframes
      obtain ⟨before, name, after, hleftmost, rfl⟩ := exists_leftmostName hline
      refine Or.inr ⟨passed.length + 1, line, before, name, after, ⟨Nat.le_add_left 1 _, ?_, ?_, ?_⟩,
        hleftmost, ?_⟩
      · simp
      · exact ⟨name, hleftmost.isName, before, after, hleftmost.line_eq.symm⟩
      · intro earlier other hearlier hbefore hother
        obtain ⟨place, rfl⟩ := Nat.exists_eq_add_of_le' hearlier
        rw [List.getElem?_cons_succ, List.getElem?_append_left (by omega)] at hother
        exact hpassed other (List.mem_of_getElem? hother)
      · have hrelabelled : '\n' ∉ before ++ topLevelLabel ++ after := by
          have hwhole := hfree line (by simp)
          have hlabel : '\n' ∉ topLevelLabel := by decide
          rw [hleftmost.line_eq] at hwhole
          simp only [List.mem_append, not_or] at hwhole ⊢
          exact ⟨⟨hwhole.1.1, hlabel⟩, hwhole.2⟩
        have hkept : ∀ other ∈ message :: (passed ++ [before ++ topLevelLabel ++ after]),
            '\n' ∉ other := by
          intro other hother
          rcases List.mem_cons.mp hother with rfl | hother
          · exact hfree other List.mem_cons_self
          · rcases List.mem_append.mp hother with hother | hother
            · exact hfree other (List.mem_cons_of_mem _ (List.mem_append_left _ hother))
            · rw [List.mem_singleton.mp hother]
              exact hrelabelled
        simp only [hframes]
        rw [Text.splitLines, Text.splitOnChar_joinWith (List.cons_ne_nil _ _) hkept]
        simp

theorem truncateStack_line {stack : List Char} (h : '\n' ∉ stack) : truncateStack stack = stack := by
  rw [truncateStack, Text.splitLines, Text.splitOnChar_of_not_mem h]
  rfl

theorem FirstCellLine.unique {lines : List (List Char)} {place other : Nat} {line found : List Char}
    (h : FirstCellLine lines place line) (h' : FirstCellLine lines other found) :
    place = other ∧ line = found := by
  have hle : ¬place < other := fun hlt => h'.first place line h.behindMessage hlt h.here h.holds
  have hge : ¬other < place := fun hlt => h.first other found h'.behindMessage hlt h'.here h'.holds
  have hplace : place = other := by omega
  subst hplace
  exact ⟨rfl, Option.some.inj (h.here.symm.trans h'.here)⟩

theorem getElem?_last {α : Type} (items : List α) {place : Nat} (h : place ≤ items.length) (last : α) :
    (items.take place ++ [last])[place]? = some last := by
  rw [List.getElem?_append_right (List.length_take_le place items), List.length_take,
    Nat.min_eq_left h, Nat.sub_self]
  rfl

/-- A trace that ends with a relabelled line changes once more exactly if there is a name behind the
label. -/
theorem truncateStack_relabelled {stack line before name after : List Char} {lines : List (List Char)}
    {place : Nat} (hfirst : FirstCellLine lines place line) (hname : LeftmostName line before name after)
    (hlines : Text.splitLines stack = lines.take place ++ [before ++ topLevelLabel ++ after]) :
    truncateStack stack ≠ stack ↔ HoldsWrapperName after := by
  have hplace : place < lines.length := (List.getElem?_eq_some_iff.mp hfirst.here).1
  have hlast : (Text.splitLines stack)[place]? = some (before ++ topLevelLabel ++ after) := by
    rw [hlines]
    exact getElem?_last lines (Nat.le_of_lt hplace) _
  have hearlier : ∀ earlier other, 1 ≤ earlier → earlier < place →
      (Text.splitLines stack)[earlier]? = some other → ¬HoldsWrapperName other := by
    intro earlier other hone hlt hother
    rw [hlines, List.getElem?_append_left (by simp; omega), List.getElem?_take_of_lt hlt] at hother
    exact hfirst.first earlier other hone hlt hother
  rw [← holdsWrapperName_relabelled_iff hname]
  rcases truncateStack_cases stack with ⟨hnone, hwhole⟩ |
    ⟨again, found, before', name', after', hagain, hname', hlines'⟩
  · have hmem : before ++ topLevelLabel ++ after ∈ (Text.splitLines stack).tail := by
      refine List.mem_of_getElem? (i := place - 1) ?_
      rw [List.getElem?_tail, Nat.sub_add_cancel hfirst.behindMessage, hlast]
    exact iff_of_false (fun hchanged => hchanged hwhole) (hnone _ hmem)
  · -- the line that is cut now can only be the relabelled one
    have hsame : again = place := by
      have hlength := (List.getElem?_eq_some_iff.mp hagain.here).1
      have hge : ¬again < place :=
        fun hlt => hearlier again found hagain.behindMessage hlt hagain.here hagain.holds
      simp only [hlines, List.length_append, List.length_take, List.length_singleton] at hlength
      omega
    subst hsame
    have hfound : before ++ topLevelLabel ++ after = found :=
      Option.some.inj (hlast.symm.trans hagain.here)
    refine iff_of_true (fun hwhole => ?_) (hfound ▸ hagain.holds)
    have hcut : (Text.splitLines stack)[again]? = some (before' ++ topLevelLabel ++ after') := by
      rw [← hwhole, hlines']
      exact getElem?_last _ (Nat.le_of_lt (List.getElem?_eq_some_iff.mp hagain.here).1) _
    have hlabel : before' ++ name' ++ after' = before' ++ topLevelLabel ++ after' := by
      rw [← hname'.line_eq]
      exact Option.some.inj (hagain.here.symm.trans hcut)
    have hhead := hname'.isName.head?
    rw [List.append_cancel_left (List.append_cancel_right hlabel)] at hhead
    cases hhead

/-- A trace is cut behind the first line, its message left aside, that holds a wrapper name, and in that
line the leftmost name is replaced. A second truncation changes the trace exactly if another name
stands behind that one. -/
theorem truncateStack_lines (stack : List Char) :
    (∀ line ∈ (Text.splitLines stack).tail, ¬HoldsWrapperName line) ∧ truncateStack stack = stack ∨
      ∃ place line before name after, FirstCellLine (Text.splitLines stack) place line ∧
        LeftmostName line before name after ∧
        Text.splitLines (truncateStack stack) =
          (Text.splitLines stack).take place ++ [before ++ topLevelLabel ++ after] ∧
        (Text.splitLines (truncateStack stack)).length = place + 1 ∧
        (truncateStack (truncateStack stack) ≠ truncateStack stack ↔ HoldsWrapperName after) := by
  rcases truncateStack_cases stack with hwhole | ⟨place, line, before, name, after, hfirst, hname, hlines⟩
  · exact Or.inl hwhole
  · refine Or.inr ⟨place, line, before, name, after, hfirst, hname, hlines, ?_,
      truncateStack_relabelled hfirst hname hlines⟩
    have hlt := (List.getElem?_eq_some_iff.mp hfirst.here).1
    simp only [hlines, List.length_append, List.length_take, List.length_singleton]
    omega

/-- The message line is left alone, and the two underscores between two names belong to the first. -/
example : truncateStack "in __cell_1__\nat __cell___cell_1__cell_2__\nat host".toList =
    "in __cell_1__\nat __cell_<top level>cell_2__".toList := by
  decide +kernel

end NotebookCell
