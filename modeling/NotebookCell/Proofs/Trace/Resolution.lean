import NotebookCell.Proofs.Trace.Locating
import NotebookCell.Proofs.Trace.Reading
import NotebookCell.Proofs.Trace.Truncation
import NotebookCell.Trace.Format

/-!
# What references become

In a truncated trace every reference is replaced by what it means in the history, all by itself, and one
that leads nowhere stays as it is written. Only a number with too many digits keeps a trace from being
shown at all.
-/

namespace NotebookCell

/-! ### Places that are not there -/

namespace MappedText

/-- There is no such line or column, or nobody wrote anything there or behind it in its line. -/
def LeadsNowhere (text : MappedText) (line column : Nat) : Prop :=
  line = 0 ∨ text.lines.length < line ∨ column = 0 ∨
    ∃ found, text.lines[line - 1]? = some found ∧
      (found.length < column ∨ ∀ c ∈ found.drop (column - 1), c.origin = none)

theorem originAt?_eq_none_iff {text : MappedText} {line column : Nat} :
    text.originAt? line column = none ↔ text.LeadsNowhere line column := by
  unfold originAt? LeadsNowhere
  by_cases hplace : (1 : Int) ≤ line ∧ (1 : Int) ≤ column
  · have hline : ((line : Int) - 1).toNat = line - 1 := by omega
    have hcolumn : ((column : Int) - 1).toNat = column - 1 := by omega
    rw [if_pos hplace, originFrom?, hline, hcolumn]
    cases hfound : text.lines[line - 1]? with
    | none =>
      have hlength := List.getElem?_eq_none_iff.mp hfound
      exact iff_of_true rfl (Or.inr (Or.inl (by omega)))
    | some found =>
      have hlength := (List.getElem?_eq_some_iff.mp hfound).1
      rw [Option.bind_some, List.findSome?_eq_none_iff]
      constructor
      · exact fun hnone => Or.inr (Or.inr (Or.inr ⟨found, rfl, Or.inr hnone⟩))
      · rintro (h | h | h | ⟨found', hsame, hshort | hnone⟩) c hc
        · omega
        · omega
        · omega
        · obtain rfl := Option.some.inj hsame
          rw [List.drop_of_length_le (by omega)] at hc
          cases hc
        · obtain rfl := Option.some.inj hsame
          exact hnone c hc
  · rw [if_neg hplace]
    exact iff_of_true rfl (by omega)

end MappedText

/-! ### One reference -/

/-- The column of a reference that has a line: the first one if none is written. -/
def Reference.columnNumber (reference : Reference) : Nat :=
  (reference.column.map Text.digitsValue).getD 1

namespace History

variable {history : History} {reference : Reference}

/-- What a reference stands for: without a line the name of its cell, else the place that the character
there was read from. -/
inductive Means (history : History) (reference : Reference) : String → Prop where
  | name {record : CellRecord} {name : String}
      (held : history.get? (Text.digitsValue reference.id) = some record)
      (whole : reference.line = none) (named : record.name = some name) (shown : name ≠ "") :
      Means history reference name
  | place {record : CellRecord} {line : List Char} {origin : Position}
      (held : history.get? (Text.digitsValue reference.id) = some record)
      (inside : reference.line = some line)
      (found : record.source.originAt? (Text.digitsValue line) reference.columnNumber = some origin) :
      Means history reference (origin.format reference.column.isSome)

/-- The reference leads nowhere: there is no such record, or it has no name to show, or no origin. -/
def Unresolved (history : History) (reference : Reference) : Prop :=
  history.get? (Text.digitsValue reference.id) = none ∨
    ∃ record, history.get? (Text.digitsValue reference.id) = some record ∧
      (reference.line = none ∧ (record.name = none ∨ record.name = some "") ∨
        ∃ line, reference.line = some line ∧
          record.source.LeadsNowhere (Text.digitsValue line) reference.columnNumber)

theorem nonEmptyName_eq_some_iff {name : Option String} {shown : String} :
    nonEmptyName name = some shown ↔ name = some shown ∧ shown ≠ "" := by
  simp [nonEmptyName, Option.filter_eq_some_iff]

theorem resolve?_eq (history : History) (reference : Reference) :
    history.resolve? reference = (history.get? (Text.digitsValue reference.id)).bind fun record =>
      match reference.line with
      | none => nonEmptyName record.name
      | some line =>
        (record.source.originAt? (Text.digitsValue line) reference.columnNumber).map fun origin =>
          origin.format reference.column.isSome := by
  unfold resolve? Reference.columnNumber
  cases history.get? (Text.digitsValue reference.id) with
  | none => rfl
  | some record =>
    cases reference.line with
    | none => rfl
    | some line =>
      simp only [Option.bind_eq_bind, Option.bind_some, locate_eq_originAt?, Option.map_eq_bind]
      cases reference.column <;> rfl

theorem resolve?_eq_some_iff {shown : String} :
    history.resolve? reference = some shown ↔ history.Means reference shown := by
  rw [resolve?_eq, Option.bind_eq_some_iff]
  constructor
  · rintro ⟨record, hheld, hshown⟩
    cases hline : reference.line with
    | none =>
      rw [hline] at hshown
      obtain ⟨hname, hne⟩ := nonEmptyName_eq_some_iff.mp hshown
      exact .name hheld hline hname hne
    | some line =>
      rw [hline] at hshown
      obtain ⟨origin, hfound, rfl⟩ := Option.map_eq_some_iff.mp hshown
      exact .place hheld hline hfound
  · rintro (⟨hheld, hline, hname, hne⟩ | ⟨hheld, hline, hfound⟩)
    · refine ⟨_, hheld, ?_⟩
      rw [hline]
      exact nonEmptyName_eq_some_iff.mpr ⟨hname, hne⟩
    · refine ⟨_, hheld, ?_⟩
      rw [hline]
      exact Option.map_eq_some_iff.mpr ⟨_, hfound, rfl⟩

theorem nonEmptyName_eq_none_iff {name : Option String} :
    nonEmptyName name = none ↔ name = none ∨ name = some "" := by
  cases name <;> simp [nonEmptyName, Option.filter_eq_none_iff]

theorem resolve?_eq_none_iff : history.resolve? reference = none ↔ history.Unresolved reference := by
  rw [resolve?_eq]
  unfold Unresolved
  cases history.get? (Text.digitsValue reference.id) with
  | none => exact iff_of_true rfl (Or.inl rfl)
  | some record =>
    cases reference.line with
    | none => simp [nonEmptyName_eq_none_iff]
    | some line => simp [MappedText.originAt?_eq_none_iff]

/-- What a part of a trace becomes, whatever the other parts are. -/
def Replaces (history : History) : TracePart → List Char → Prop
  | .plain c, shown => shown = [c]
  | .reference found, shown =>
    (∃ place, history.Means found place ∧ shown = place.toList) ∨
      history.Unresolved found ∧ shown = found.text

theorem replaces_iff {part : TracePart} {shown : List Char} :
    history.Replaces part shown ↔ history.renderPart part = shown := by
  cases part with
  | plain c => exact eq_comm
  | reference found =>
    unfold Replaces renderPart
    simp only [← resolve?_eq_some_iff, ← resolve?_eq_none_iff]
    cases history.resolve? found with
    | none => simp [eq_comm]
    | some place => simp [eq_comm]

theorem forall₂_replaces_iff {parts : List TracePart} {shown : List (List Char)} :
    List.Forall₂ history.Replaces parts shown ↔ shown = parts.map history.renderPart := by
  have hsame : history.Replaces = fun part shown => history.renderPart part = shown := by
    funext part shown
    exact propext replaces_iff
  rw [hsame, ← List.forall₂_map_left_iff, List.forall₂_eq_eq_eq, eq_comm]

theorem renderPart_of_unresolved {part : TracePart}
    (h : ∀ found, part = .reference found → history.Unresolved found) :
    history.renderPart part = part.text := by
  cases part with
  | plain c => rfl
  | reference found => exact replaces_iff.mp (Or.inr ⟨h found rfl, rfl⟩)

/-! ### Numbers that are too long -/

/-- A number of the reference that is looked at has too many digits. Without a record of the id, line and
column do not matter. -/
def Overlong (history : History) (reference : Reference) : Prop :=
  Text.maxDigits < reference.id.length ∨
    (∃ record, history.get? (Text.digitsValue reference.id) = some record) ∧
      ∃ digits, (reference.line = some digits ∨ reference.column = some digits) ∧
        Text.maxDigits < digits.length

theorem tooLong?_eq_none_iff {digits : List Char} :
    tooLong? digits = none ↔ digits.length ≤ Text.maxDigits := by
  simp [tooLong?]

theorem unreadable?_eq_none_iff (h : reference.WellFormed) :
    history.unreadable? reference = none ↔ ¬history.Overlong reference := by
  have hcolumn := h.column_line
  unfold unreadable? Overlong
  cases history.get? (Text.digitsValue reference.id) with
  | none => simp [tooLong?_eq_none_iff]
  | some record =>
    cases hline : reference.line with
    | none => simp [tooLong?_eq_none_iff, hcolumn hline]
    | some line =>
      cases reference.column with
      | none => simp [tooLong?_eq_none_iff]
      | some column => simp [tooLong?_eq_none_iff]

theorem lt_of_tooLong? {digits : List Char} {count : Nat} (h : tooLong? digits = some count) :
    Text.maxDigits < count := by
  unfold tooLong? at h
  split at h
  · cases h
  · obtain rfl := Option.some.inj h
    omega

theorem lt_of_unreadable? {count : Nat} (h : history.unreadable? reference = some count) :
    Text.maxDigits < count := by
  unfold unreadable? at h
  cases hid : tooLong? reference.id with
  | some n => exact lt_of_tooLong? (hid.trans (by simpa [hid] using h))
  | none =>
    simp only [hid, Option.bind_eq_bind, Option.orElse_eq_orElse, Option.orElse_none,
      Option.bind_eq_some_iff] at h
    obtain ⟨record, -, line, -, h⟩ := h
    cases hline : tooLong? line with
    | some n => exact lt_of_tooLong? (hline.trans (by simpa [hline] using h))
    | none =>
      simp only [hline, Option.orElse_none, Option.bind_eq_some_iff] at h
      obtain ⟨column, -, h⟩ := h
      exact lt_of_tooLong? h

theorem traceError?_eq_none_iff {stack : List Char} {parts : List TracePart}
    (h : ReadAs (truncateStack stack) parts) :
    history.traceError? stack = none ↔
      ∀ reference, .reference reference ∈ parts → ¬history.Overlong reference := by
  obtain rfl := readAs_iff.mp h
  rw [traceError?, List.findSome?_eq_none_iff]
  constructor
  · intro hnone found hmem
    have hfound := hnone _ hmem
    exact (unreadable?_eq_none_iff (h.wellFormed hmem)).mp (Option.map_eq_none_iff.mp hfound)
  · intro hshort part hmem
    cases part with
    | plain c => rfl
    | reference found =>
      have hfound := (unreadable?_eq_none_iff (h.wellFormed hmem)).mpr (hshort found hmem)
      exact Option.map_eq_none_iff.mpr hfound

theorem lt_of_traceError? {stack : List Char} {count : Nat}
    (h : history.traceError? stack = some (.tooManyDigits count)) : Text.maxDigits < count := by
  obtain ⟨part, -, hpart⟩ := List.exists_of_findSome?_eq_some h
  cases part with
  | plain c => cases hpart
  | reference found =>
    obtain ⟨n, hn, hcount⟩ := Option.map_eq_some_iff.mp hpart
    cases hcount
    exact lt_of_unreadable? hn

end History

/-! ### Whole traces -/

/-- There is one way to read a truncated trace. What is shown has every character that belongs to no
reference in its place, and for each reference what it stands for, or the reference as it is written if
it leads nowhere; nothing of this depends on the rest of the trace or is read again. So a trace all of
whose references lead nowhere is shown as it is truncated. The one thing that keeps a trace from being
shown is a number with too many digits. -/
theorem History.showError_by_references (history : History) (error : ReportedError) :
    ∃ parts, (∀ others, ReadAs (truncateStack error.stackText.toList) others ↔ others = parts) ∧
      ((∃ reference, .reference reference ∈ parts ∧ history.Overlong reference) →
        ∃ count, Text.maxDigits < count ∧ history.showError error = .error (.tooManyDigits count)) ∧
      ((∀ reference, .reference reference ∈ parts → ¬history.Overlong reference) →
        ∃ shown, (∀ others, List.Forall₂ history.Replaces parts others ↔ others = shown) ∧
          history.showError error = .ok (String.ofList shown.flatten)) ∧
      ((∀ reference, .reference reference ∈ parts →
          history.Unresolved reference ∧ ¬history.Overlong reference) →
        history.showError error = .ok (String.ofList (truncateStack error.stackText.toList))) := by
  generalize htext : truncateStack error.stackText.toList = text
  have hread : ReadAs text (traceParts text) := readAs_traceParts text
  have hnone : history.traceError? error.stackText.toList = none ↔
      ∀ reference, .reference reference ∈ traceParts text → ¬history.Overlong reference :=
    History.traceError?_eq_none_iff (by rwa [htext])
  have hshown : (∀ reference, .reference reference ∈ traceParts text → ¬history.Overlong reference) →
      history.showError error =
        .ok (String.ofList ((traceParts text).map history.renderPart).flatten) := by
    intro hshort
    rw [showError, hnone.mpr hshort, formatError, formatStack, htext, List.flatMap_def]
  refine ⟨traceParts text, fun others => readAs_iff, ?_, fun hshort => ?_, fun hlost => ?_⟩
  · rintro ⟨reference, hmem, hlong⟩
    cases herror : history.traceError? error.stackText.toList with
    | none => exact absurd hlong (hnone.mp herror reference hmem)
    | some failure =>
      cases failure with
      | tooManyDigits count =>
        exact ⟨count, History.lt_of_traceError? herror, by rw [showError, herror]⟩
  · exact ⟨_, fun others => History.forall₂_replaces_iff, hshown hshort⟩
  · have hkept : ∀ part ∈ traceParts text, history.renderPart part = part.text := by
      intro part hmem
      exact History.renderPart_of_unresolved fun found hfound => (hlost found (hfound ▸ hmem)).1
    rw [hshown fun reference hmem => (hlost reference hmem).2, List.map_congr_left hkept,
      ← List.flatMap_def, hread.text_eq]

/-- A name that looks like a reference is not read again, and what leads nowhere stays. -/
example :
    let record : CellRecord := .ofSource 7 (some "__transpiled_source_7") (.ofString "a")
    History.showError { records := [record] }
        (.text "at __transpiled_source_007:1:1:1, __transpiled_source_8, __transpiled_source_٧:") =
      .ok "at __transpiled_source_007:1:1:1, __transpiled_source_8, __transpiled_source_7:" := by
  decide +kernel

/-! ### A number with one digit too many -/

theorem truncateStack_reference {digits : List Char} (h : ∀ c ∈ digits, Text.isDigit c = true) :
    truncateStack (referenceStart ++ digits) = referenceStart ++ digits := by
  refine truncateStack_line fun hmem => ?_
  rcases List.mem_append.mp hmem with hmem | hmem
  · exact absurd hmem (by decide)
  · exact absurd (h _ hmem) (by decide)

theorem traceParts_lone {digits : List Char} (h : IsNumber digits) :
    traceParts (referenceStart ++ digits) = [.reference { id := digits }] := by
  have hread : referenceAt? (referenceStart ++ (digits ++ [])) = some { id := digits } :=
    referenceAt?_number h nofun
  have htext : Reference.text { id := digits } ++ [] = referenceStart ++ (digits ++ []) := by
    simp [Reference.text]
  rw [← htext] at hread
  have hparts := traceParts_reference hread
  rwa [htext, List.append_nil] at hparts

/-- The id of a lone reference has too many digits to be read. -/
theorem traceError?_of_long (history : History) {digits : List Char}
    (hdigits : ∀ c ∈ digits, Text.isDigit c = true) (hlong : Text.maxDigits < digits.length) :
    history.traceError? (referenceStart ++ digits) = some (.tooManyDigits digits.length) := by
  have hnumber : IsNumber digits := ⟨List.ne_nil_of_length_pos (by omega), hdigits⟩
  have hid : tooLong? digits = some digits.length := if_neg (Nat.not_le.mpr hlong)
  rw [History.traceError?, truncateStack_reference hdigits, traceParts_lone hnumber]
  simp [History.unreadable?, hid]

/-- A reference whose id has one digit too many. -/
def Reference.overlong : Reference := { id := List.replicate 4301 '1' }

theorem Reference.text_overlong : overlong.text = referenceStart ++ overlong.id := by
  rw [text, overlong, List.append_nil, List.append_nil]

theorem isDigit_of_mem_overlong : ∀ c ∈ Reference.overlong.id, Text.isDigit c = true := by
  intro c hc
  rw [List.eq_of_mem_replicate hc]
  rfl

/-- Without any record it leads nowhere, and yet a trace that is nothing but this reference cannot be
shown. -/
theorem showError_overlong :
    ReadAs (truncateStack Reference.overlong.text) [.reference Reference.overlong] ∧
      History.Unresolved {} Reference.overlong ∧
      History.showError {} (.text (String.ofList Reference.overlong.text)) =
        .error (.tooManyDigits 4301) ∧
      History.showError {} (.text (String.ofList Reference.overlong.text)) ≠
        .ok (String.ofList (truncateStack Reference.overlong.text)) := by
  have hlength : Reference.overlong.id.length = 4301 := List.length_replicate
  have hnumber : IsNumber Reference.overlong.id :=
    ⟨List.ne_nil_of_length_pos (by omega), isDigit_of_mem_overlong⟩
  have hshown : History.showError {} (.text (String.ofList Reference.overlong.text)) =
      .error (.tooManyDigits 4301) := by
    rw [History.showError, ReportedError.stackText, String.toList_ofList, Reference.text_overlong,
      traceError?_of_long {} isDigit_of_mem_overlong (by rw [hlength]; decide), hlength]
  have hread : ReadAs (truncateStack Reference.overlong.text) [.reference Reference.overlong] := by
    rw [Reference.text_overlong, truncateStack_reference isDigit_of_mem_overlong]
    exact readAs_iff.mpr (traceParts_lone hnumber).symm
  refine ⟨hread, Or.inl rfl, hshown, ?_⟩
  rw [hshown]
  exact nofun

end NotebookCell
