import Mathlib.Data.List.TakeWhile
import Mathlib.Data.Nat.Digits.Defs
import NotebookCell.Proofs.Cell.Provenance
import NotebookCell.Proofs.Trace.References
import NotebookCell.Proofs.Trace.Truncation
import NotebookCell.Trace.Format

/-!
# Locations in traces

The place of a character of generated code, written with its line and column, reads back as the
origin that stands for that character.
-/

namespace NotebookCell

/-! ### Lines and columns of generated text -/

namespace MappedText

/-- The number of lines that end in a text. -/
def newlines (text : MappedText) : Nat := text.countP MappedChar.isNewline

/-- The number of characters behind the last newline of a text. -/
def sinceNewline (text : MappedText) : Nat :=
  (text.reverse.takeWhile fun c => !c.isNewline).length

/-- The line, counted from one, of the character at a place. -/
def lineAt (text : MappedText) (place : Nat) : Nat := 1 + newlines (text.take place)

/-- The column, counted from one, of the character at a place. -/
def columnAt (text : MappedText) (place : Nat) : Nat := 1 + sinceNewline (text.take place)

def columnPast (column : Nat) (text : MappedText) : Nat :=
  if text.newlines = 0 then column + text.length else 1 + text.sinceNewline

theorem newlines_cons (c : MappedChar) (text : MappedText) :
    newlines (c :: text) = text.newlines + if c.isNewline then 1 else 0 := List.countP_cons

theorem newlines_eq_zero_iff {text : MappedText} :
    text.newlines = 0 ↔ (text.reverse.takeWhile fun c => !c.isNewline) = text.reverse := by
  rw [newlines, List.countP_eq_zero, List.takeWhile_eq_self_iff]
  constructor
  · intro h c hc
    rw [Bool.not_eq_true', Bool.eq_false_iff]
    exact h c (List.mem_reverse.mp hc)
  · intro h c hc
    have hno := h c (List.mem_reverse.mpr hc)
    rw [Bool.not_eq_true', Bool.eq_false_iff] at hno
    exact hno

theorem sinceNewline_of_newlines_eq_zero {text : MappedText} (h : text.newlines = 0) :
    text.sinceNewline = text.length := by
  rw [sinceNewline, newlines_eq_zero_iff.mp h, List.length_reverse]

theorem newlines_eq_zero_of_sinceNewline {text : MappedText}
    (h : text.sinceNewline = text.length) : text.newlines = 0 := by
  rw [newlines_eq_zero_iff]
  exact (List.takeWhile_sublist _).eq_of_length (by rw [List.length_reverse]; exact h)

theorem sinceNewline_cons (c : MappedChar) (text : MappedText) :
    sinceNewline (c :: text) =
      if text.newlines = 0 then text.length + (if c.isNewline then 0 else 1)
      else text.sinceNewline := by
  rw [sinceNewline, List.reverse_cons, List.takeWhile_append, List.length_reverse]
  split
  · rename_i hwhole
    rw [if_pos (newlines_eq_zero_of_sinceNewline hwhole), List.length_append, List.length_reverse,
      List.takeWhile_cons]
    cases c.isNewline <;> rfl
  · rename_i hpart
    rw [if_neg fun hzero => hpart (sinceNewline_of_newlines_eq_zero hzero)]
    rfl

theorem columnPast_newline {c : MappedChar} (hc : c.isNewline = true) (column : Nat)
    (text : MappedText) : columnPast column (c :: text) = columnPast 1 text := by
  simp only [columnPast, newlines_cons, sinceNewline_cons, hc, if_true, Nat.add_one_ne_zero, if_false,
    Nat.add_zero]
  split <;> rfl

theorem columnPast_cons {c : MappedChar} (hc : c.isNewline = false) (column : Nat)
    (text : MappedText) : columnPast column (c :: text) = columnPast (column + 1) text := by
  simp only [columnPast, newlines_cons, sinceNewline_cons, hc, Bool.false_eq_true, if_false,
    Nat.add_zero, List.length_cons]
  split
  · omega
  · rfl

theorem columnAt_eq (text : MappedText) (place : Nat) :
    text.columnAt place = columnPast 1 (text.take place) := by
  unfold columnAt columnPast
  split
  · rename_i hzero
    rw [sinceNewline_of_newlines_eq_zero hzero]
  · rfl

/-- A later character has a later line, or its line and a later column. -/
theorem column_lt_columnPast {text : MappedText} (hne : text ≠ []) (column : Nat)
    (hline : text.newlines = 0) : column < columnPast column text := by
  have hlength : 0 < text.length := List.length_pos_iff.mpr hne
  rw [columnPast, if_pos hline]
  omega

/-- A scan for the line and the column behind a text passes by the first character of that text. -/
theorem locateFrom_pass (c : MappedChar) (skipped rest : MappedText) (line column : Nat) :
    locateFrom (line + newlines (c :: skipped) : Nat) (columnPast column (c :: skipped) : Nat) line
        column (c :: rest) =
      if c.isNewline then
        locateFrom (line + 1 + skipped.newlines : Nat) (columnPast 1 skipped : Nat)
          (line + 1 : Nat) (1 : Nat) rest
      else
        locateFrom (line + skipped.newlines : Nat) (columnPast (column + 1) skipped : Nat) line
          (column + 1 : Nat) rest := by
  have hother : ¬((line : Int) = (line + newlines (c :: skipped) : Nat) ∧
      (column : Int) = (columnPast column (c :: skipped) : Nat)) := by
    intro hsame
    have hlt := column_lt_columnPast (List.cons_ne_nil c skipped) column
    omega
  have hahead : ¬((line + newlines (c :: skipped) : Nat) : Int) < line := by omega
  rw [locateFrom, if_neg hother, if_neg hahead]
  cases hc : c.isNewline with
  | true =>
    have hlines : line + newlines (c :: skipped) = line + 1 + newlines skipped := by
      rw [newlines_cons, hc, if_pos rfl]
      omega
    rw [if_pos rfl, if_pos rfl, columnPast_newline hc, hlines]
    rfl
  | false =>
    have hlines : newlines (c :: skipped) = newlines skipped := by
      rw [newlines_cons, hc, if_neg Bool.false_ne_true, Nat.add_zero]
    rw [if_neg Bool.false_ne_true, if_neg Bool.false_ne_true, columnPast_cons hc, hlines]
    rfl

/-- The scan for the line and the column behind a text passes by that text. -/
theorem locateFrom_append (skipped : MappedText) {rest : MappedText} (hrest : rest ≠ [])
    (line column : Nat) :
    locateFrom (line + skipped.newlines : Nat) (columnPast column skipped : Nat) line column
      (skipped ++ rest) = rest.originOnLine? := by
  induction skipped generalizing line column with
  | nil =>
    cases rest with
    | nil => exact absurd rfl hrest
    | cons c rest => exact if_pos ⟨rfl, rfl⟩
  | cons c skipped ih =>
    rw [List.cons_append, locateFrom_pass]
    split
    · exact ih (line + 1) 1
    · exact ih line (column + 1)

theorem locateFrom_end (text : MappedText) (line column : Nat) :
    locateFrom (line + text.newlines : Nat) (columnPast column text : Nat) line column text =
      none := by
  induction text generalizing line column with
  | nil => rfl
  | cons c text ih =>
    rw [locateFrom_pass]
    split
    · exact ih (line + 1) 1
    · exact ih line (column + 1)

end MappedText

theorem locate_place {text : MappedText} {place : Nat} (h : place < text.length) :
    locate text (text.lineAt place) (text.columnAt place) =
      MappedText.originOnLine? (text.drop place) := by
  have hrest : text.drop place ≠ [] := by
    rw [ne_eq, List.drop_eq_nil_iff]
    omega
  have happend := MappedText.locateFrom_append (text.take place) hrest 1 1
  rw [List.take_append_drop, ← MappedText.columnAt_eq] at happend
  exact happend

theorem MappedText.lineAt_le {text : MappedText} {place : Nat} (h : place < text.length) :
    text.lineAt place ≤ text.length := by
  have hcount : newlines (text.take place) ≤ (text.take place).length := List.countP_le_length
  rw [List.length_take] at hcount
  rw [lineAt]
  omega

theorem MappedText.columnAt_le {text : MappedText} {place : Nat} (h : place < text.length) :
    text.columnAt place ≤ text.length := by
  have hcount : sinceNewline (text.take place) ≤ (text.take place).reverse.length :=
    (List.takeWhile_sublist _).length_le
  rw [List.length_reverse, List.length_take] at hcount
  rw [columnAt]
  omega

theorem locate_end {text : MappedText} {place : Nat} (h : text.length ≤ place) :
    locate text (text.lineAt place) (text.columnAt place) = none := by
  rw [MappedText.columnAt_eq, MappedText.lineAt, List.take_of_length_le h]
  exact MappedText.locateFrom_end text 1 1

/-- The origin stands for the beginning of the text: the first character that has one has this one,
and no line ends before that character. -/
def MappedText.Shows (text : MappedText) (origin : Position) : Prop :=
  ∃ skipped c rest, text = skipped ++ c :: rest ∧ c.origin = some origin ∧
    ∀ d ∈ skipped, d.origin = none ∧ d.isNewline = false

theorem MappedText.originOnLine?_eq_some_iff {text : MappedText} {origin : Position} :
    text.originOnLine? = some origin ↔ text.Shows origin := by
  induction text with
  | nil =>
    constructor
    · intro h
      cases h
    · rintro ⟨skipped, c, rest, h, -⟩
      cases skipped <;> cases h
  | cons c rest ih =>
    constructor
    · intro h
      rw [originOnLine?] at h
      split at h
      · rename_i own hown
        cases h
        exact ⟨[], c, rest, rfl, hown, fun d hd => by cases hd⟩
      · rename_i hnone
        split at h
        · cases h
        · rename_i hline
          obtain ⟨skipped, d, after, rfl, hd, hskipped⟩ := ih.mp h
          refine ⟨c :: skipped, d, after, rfl, hd, ?_⟩
          intro e he
          rcases List.mem_cons.mp he with rfl | he
          · exact ⟨hnone, Bool.eq_false_iff.mpr hline⟩
          · exact hskipped e he
    · rintro ⟨skipped, d, after, h, hd, hskipped⟩
      rw [originOnLine?]
      cases skipped with
      | nil =>
        cases h
        rw [hd]
      | cons e skipped =>
        cases h
        obtain ⟨hnone, hline⟩ := hskipped c List.mem_cons_self
        rw [hnone, hline]
        exact ih.mpr ⟨skipped, d, after, rfl, hd, fun e he => hskipped e (List.mem_cons_of_mem c he)⟩

theorem MappedText.mem_origins_of_shows {text : MappedText} {place : Nat} {origin : Position}
    (h : MappedText.Shows (text.drop place) origin) : origin ∈ text.origins := by
  obtain ⟨skipped, c, rest, hdrop, hc, -⟩ := h
  have hmem : c ∈ text.drop place := by
    rw [hdrop]
    exact List.mem_append_right skipped List.mem_cons_self
  exact List.mem_filterMap.mpr ⟨c, List.mem_of_mem_drop hmem, hc⟩

theorem Position.file_of_mem_tag {p q : Position} {chars : List Char}
    (h : q ∈ (p.tag chars).origins) : q.file = p.file := by
  induction chars generalizing p with
  | nil => cases h
  | cons c rest ih =>
    have hnext : (p.next c).file = p.file := by
      unfold Position.next
      split <;> rfl
    have hcons : (p.tag (c :: rest)).origins = p :: ((p.next c).tag rest).origins := rfl
    rw [hcons] at h
    rcases List.mem_cons.mp h with rfl | h
    · rfl
    · exact (ih h).trans hnext

/-! ### A trace of one line -/

theorem flatMap_renderPart_plain (history : History) (text : List Char) :
    (text.map TracePart.plain).flatMap history.renderPart = text := by
  rw [List.flatMap_map]
  exact List.flatMap_singleton' text

theorem not_mem_numeral {c : Char} (hc : Text.isDigit c = false) (n : Nat) :
    c ∉ Text.numeral n := by
  intro h
  rw [Text.isDigit_of_mem_numeral h] at hc
  cases hc

theorem newline_not_mem_reference (id line column : Nat) :
    '\n' ∉ (Reference.at id line column).text := by
  have hstart : '\n' ∉ referenceStart := by decide
  have hcolon : '\n' ≠ ':' := by decide
  have hdigit : Text.isDigit '\n' = false := by decide
  rw [Reference.text_at]
  simp only [List.mem_append, List.mem_cons, not_or]
  exact ⟨hstart, not_mem_numeral hdigit id, hcolon, not_mem_numeral hdigit line, hcolon,
    not_mem_numeral hdigit column⟩

/-- A text of one line in which no reference to generated code is begun. -/
def PlainTrace (text : String) : Prop := '\n' ∉ text.toList ∧ ¬referenceStart <:+: text.toList

instance (text : String) : Decidable (PlainTrace text) :=
  inferInstanceAs (Decidable (_ ∧ _))

theorem traceParts_reference_line {front back : String} (hfront : PlainTrace front)
    (hback : PlainTrace back) (hdigit : ∀ c ∈ back.toList.head?, Text.isDigit c = false)
    (id line column : Nat) :
    traceParts (truncateStack
        (front.toList ++ ((Reference.at id line column).text ++ back.toList))) =
      front.toList.map .plain ++ .reference (Reference.at id line column) ::
        back.toList.map .plain := by
  have hline : '\n' ∉ front.toList ++ ((Reference.at id line column).text ++ back.toList) := by
    simp only [List.mem_append, not_or]
    exact ⟨hfront.1, newline_not_mem_reference id line column, hback.1⟩
  rw [truncateStack_line hline, traceParts_at id line column hfront.2 hback.2 hdigit]

theorem formatStack_reference (history : History) {front back : String} (hfront : PlainTrace front)
    (hback : PlainTrace back) (hdigit : ∀ c ∈ back.toList.head?, Text.isDigit c = false)
    (id line column : Nat) :
    history.formatStack (front.toList ++ ((Reference.at id line column).text ++ back.toList)) =
      front.toList ++ (history.renderPart (.reference (Reference.at id line column)) ++
        back.toList) := by
  rw [History.formatStack, traceParts_reference_line hfront hback hdigit, List.flatMap_append,
    List.flatMap_cons, flatMap_renderPart_plain, flatMap_renderPart_plain]

theorem tooLong?_numeral {n : Nat} (h : n < 10 ^ Text.maxDigits) :
    tooLong? (Text.numeral n) = none :=
  if_pos (Nat.toDigits_length 10 n Text.maxDigits (by decide) h)

theorem traceError?_reference (history : History) {front back : String} (hfront : PlainTrace front)
    (hback : PlainTrace back) (hdigit : ∀ c ∈ back.toList.head?, Text.isDigit c = false)
    {id line column : Nat} (hid : id < 10 ^ Text.maxDigits) (hline : line < 10 ^ Text.maxDigits)
    (hcolumn : column < 10 ^ Text.maxDigits) :
    history.traceError? (front.toList ++ ((Reference.at id line column).text ++ back.toList)) =
      none := by
  have hread : history.unreadable? (Reference.at id line column) = none := by
    simp only [History.unreadable?, Reference.at, tooLong?_numeral hid, tooLong?_numeral hline,
      tooLong?_numeral hcolumn, Option.orElse_eq_orElse, Option.orElse_none, Option.bind_eq_bind,
      Option.bind_some, Option.bind_fun_none]
  rw [History.traceError?, traceParts_reference_line hfront hback hdigit,
    List.findSome?_eq_none_iff]
  intro part hpart
  cases part with
  | plain c => rfl
  | reference found =>
    have hfound : found = Reference.at id line column := by simpa using hpart
    rw [hfound]
    exact Option.map_eq_none_iff.mpr hread

theorem resolve?_at {history : History} {record : CellRecord} {id : Nat}
    (hget : history.get? id = some record) {place : Nat} (hplace : place < record.source.length) :
    history.resolve? (Reference.at id (record.source.lineAt place) (record.source.columnAt place)) =
      (MappedText.originOnLine? (record.source.drop place)).map fun origin => origin.format true := by
  unfold History.resolve?
  simp only [Reference.at, Text.digitsValue_numeral, hget, locate_place hplace, Option.bind_eq_bind,
    Option.bind_some, Option.isSome_some]
  cases MappedText.originOnLine? (record.source.drop place) <;> rfl

/-! ### From generated code to the cell -/

/-- How a name that may be missing is shown. -/
inductive ShownAs : Option String → String → Prop where
  | named {name : String} (h : name ≠ "") : ShownAs (some name) name
  | empty : ShownAs (some "") "<anonymous>"
  | missing : ShownAs none "<anonymous>"

theorem ShownAs.eq_name {name shown : String} (h : ShownAs (some name) shown) (hne : name ≠ "") :
    shown = name := by
  cases h with
  | named => rfl
  | empty => exact absurd rfl hne

theorem SourceFile.shownAs_shownName (file : SourceFile) : ShownAs file.name file.shownName := by
  unfold shownName nonEmptyName
  cases file.name with
  | none => exact .missing
  | some name =>
    by_cases hempty : name = ""
    · subst hempty
      exact .empty
    · have hkept : (!name.isEmpty) = true := by simpa using hempty
      rw [Option.filter_some, if_pos hkept]
      exact .named hempty

theorem toString_string (text : String) : toString text = text := rfl

/-- The character at a place of a record's code, as an engine refers to it. -/
def CellRecord.referenceTo (record : CellRecord) (place : Nat) : String :=
  s!"{record.url}:{record.source.lineAt place}:{record.source.columnAt place}"

theorem CellRecord.toList_referenceTo {record : CellRecord} {id : Nat} (hid : record.id = id)
    (place : Nat) : (record.referenceTo place).toList =
      (Reference.at id (record.source.lineAt place) (record.source.columnAt place)).text := by
  have hstart : "__transpiled_source_".toList = referenceStart := rfl
  have hcolon : ":".toList = [':'] := by simp
  rw [Reference.text_at]
  unfold referenceTo CellRecord.url sourceUrl
  rw [hid]
  simp only [String.toList_append, toString_string, Text.toList_toString_nat,
    Text.toList_toString_int, hstart, hcolon, List.append_assoc, List.cons_append,
    List.nil_append]

/-- A reference to a character of the code of a recorded cell becomes the place of the cell that is shown
for that character, with the cell's name, and stays as it is if there is none. The trace is shown as long
as the numbers in the reference are not too long to be read. -/
theorem formatError_referenceTo {trees : TreeSource} {earlier : History} {code : String}
    {name : Option String} {record : CellRecord}
    (hrecord : (transpileCell trees earlier code name).result = .ok record) {history : History}
    (hget : history.get? record.id = some record) {place : Nat}
    (hplace : place < record.source.length) {front back : String} (hfront : PlainTrace front)
    (hback : PlainTrace back) (hdigit : ∀ c ∈ back.toList.head?, Text.isDigit c = false) :
    (∀ origin, MappedText.Shows (record.source.drop place) origin →
      ∃ shown, ShownAs name shown ∧
        history.formatError (.text (front ++ record.referenceTo place ++ back)) =
          front ++ s!"{shown}:{origin.line + 1}:{origin.column + 1}" ++ back) ∧
    ((∀ origin, ¬MappedText.Shows (record.source.drop place) origin) →
      history.formatError (.text (front ++ record.referenceTo place ++ back)) =
        front ++ record.referenceTo place ++ back) ∧
    (record.id < (10 ^ Text.maxDigits : Nat) → record.source.length < 10 ^ Text.maxDigits →
      history.showError (.text (front ++ record.referenceTo place ++ back)) =
        .ok (history.formatError (.text (front ++ record.referenceTo place ++ back)))) := by
  obtain ⟨_, _, _, moved, -, -, hsource⟩ := transpileCell_ok hrecord
  have hid : record.id = (earlier.nextId.1 : Int) := by
    rw [hsource]
    rfl
  have htext := CellRecord.toList_referenceTo hid place
  have hreported : (front ++ record.referenceTo place ++ back).toList =
      front.toList ++ ((Reference.at earlier.nextId.1 (record.source.lineAt place)
        (record.source.columnAt place)).text ++ back.toList) := by
    rw [← htext, String.toList_append, String.toList_append, List.append_assoc]
  have hstack : history.formatError (.text (front ++ record.referenceTo place ++ back)) =
      String.ofList (front.toList ++ (history.renderPart (.reference (Reference.at earlier.nextId.1
        (record.source.lineAt place) (record.source.columnAt place))) ++ back.toList)) := by
    rw [← formatStack_reference history hfront hback hdigit, History.formatError,
      ReportedError.stackText, hreported]
  rw [hid] at hget
  have hresolve := resolve?_at hget hplace
  refine ⟨?_, ?_, ?_⟩
  · intro origin horigin
    have hfile : origin.file = earlier.nextFile code name :=
      Position.file_of_mem_tag
        ((transpileCell_origins hrecord).1 origin (MappedText.mem_origins_of_shows horigin))
    rw [MappedText.originOnLine?_eq_some_iff.mpr horigin] at hresolve
    refine ⟨_, (earlier.nextFile code name).shownAs_shownName, ?_⟩
    rw [hstack, History.renderPart, hresolve]
    apply String.toList_inj.mp
    simp only [Option.map_some, Position.format, hfile, String.toList_ofList, String.toList_append,
      if_true, toString_string, List.append_assoc]
  · intro hnone
    have horigin : MappedText.originOnLine? (record.source.drop place) = none := by
      cases hshown : MappedText.originOnLine? (record.source.drop place) with
      | none => rfl
      | some origin => exact absurd (MappedText.originOnLine?_eq_some_iff.mp hshown) (hnone origin)
    rw [horigin] at hresolve
    rw [hstack, History.renderPart, hresolve]
    apply String.toList_inj.mp
    simp only [Option.map_none, String.toList_ofList, String.toList_append, htext, List.append_assoc]
  · intro hshort hlength
    rw [hid] at hshort
    have hreadable := traceError?_reference history hfront hback hdigit (Int.ofNat_lt.mp hshort)
      ((MappedText.lineAt_le hplace).trans_lt hlength)
      ((MappedText.columnAt_le hplace).trans_lt hlength)
    rw [History.showError, ReportedError.stackText, hreported, hreadable]

def namedRecord : CellRecord :=
  .ofSource 1 (some "cell.js") (finishedSource 1
    (MappedText.ofString "(async function __cell_1__(__global, __import, console) \x7b\nreturn (" ++
      ⟨['a'], some ⟨History.nextFile {} "a" (some "cell.js"), 0, 0⟩⟩ ::
      MappedText.ofString ")\n\x7d)//# sourceUrl=cell.js"))

theorem formatError_referenceTo_applied :
    (transpileCell singleName {} "a" (some "cell.js")).result = .ok namedRecord ∧
      History.showError { records := [namedRecord] }
          (.text ("at __transpiled_source" ++ namedRecord.referenceTo 60 ++ ":7")) =
        .ok ("at __transpiled_source" ++ "cell.js:1:1" ++ ":7") := by
  have hrecord : (transpileCell singleName {} "a" (some "cell.js")).result = .ok namedRecord := rfl
  have hplace : 60 < namedRecord.source.length := by decide +kernel
  have hfront : PlainTrace "at __transpiled_source" := by decide +kernel
  have hback : PlainTrace ":7" := by decide +kernel
  have hdigit : ∀ c ∈ ":7".toList.head?, Text.isDigit c = false := by
    intro c hc
    have hcolon : ':' = c := Option.some.inj hc
    rw [← hcolon]
    rfl
  have hshows : MappedText.Shows (namedRecord.source.drop 60)
      ⟨History.nextFile {} "a" (some "cell.js"), 0, 0⟩ :=
    ⟨MappedText.ofString "turn (", _, _, rfl, rfl, by decide +kernel⟩
  have hget : History.get? { records := [namedRecord] } namedRecord.id =
      some namedRecord := rfl
  have hplaced : toString "cell.js" ++ s!":{0 + 1}:{0 + 1}" = "cell.js:1:1" := by decide +kernel
  have hbound : Text.maxDigits < 10 ^ Text.maxDigits := Nat.lt_pow_self (by decide)
  have hid : namedRecord.id < (10 ^ Text.maxDigits : Nat) :=
    Int.ofNat_lt.mpr (lt_trans (show 1 < Text.maxDigits by decide) hbound)
  have hlength : namedRecord.source.length < 10 ^ Text.maxDigits :=
    lt_of_le_of_lt (by decide +kernel) hbound
  obtain ⟨hmapped, _, hread⟩ :=
    formatError_referenceTo hrecord hget hplace hfront hback hdigit
  obtain ⟨shown, hnamed, hformat⟩ := hmapped _ hshows
  obtain rfl := hnamed.eq_name (by decide)
  refine ⟨hrecord, ?_⟩
  rw [hread hid hlength, hformat]
  exact congrArg (fun place => Except.ok ("at __transpiled_source" ++ place ++ ":7")) hplaced

end NotebookCell
