import NotebookCell.Proofs.SourceMap.Digits
import NotebookCell.Proofs.Text.Pieces
import NotebookCell.SourceMap.Build

/-!
# Reading mappings

A reader of the mappings of a source map as revision 3 of the format has them, and that it reads the
segments that were written.
-/

namespace NotebookCell

structure ReadTarget where
  source : Int := 0
  line : Int := 0
  column : Int := 0
deriving DecidableEq

/-- A segment as read: the number of its fields and what they come to. -/
structure ReadSegment where
  fields : Nat
  column : Int
  target : Option ReadTarget := none
  name : Option Int := none
deriving DecidableEq

/-- The numbers that run through the document. -/
structure ReadState where
  target : ReadTarget := {}
  name : Int := 0

/-- The place that lies off by three differences. -/
def ReadTarget.move (target : ReadTarget) (source line column : Int) : ReadTarget :=
  ⟨target.source + source, target.line + line, target.column + column⟩

/-- Reads a segment of one, four or five fields that stands behind a generated column. -/
def readSegment (column : Int) (last : ReadState) (text : List Char) :
    Option (ReadSegment × ReadState) :=
  match Vlq.decode text with
  | some [start] => some ({ fields := 1, column := column + start }, last)
  | some [start, source, line, place] =>
    let target := last.target.move source line place
    some ({ fields := 4, column := column + start, target := some target }, { last with target })
  | some [start, source, line, place, name] =>
    let target := last.target.move source line place
    some ({ fields := 5, column := column + start, target := some target,
            name := some (last.name + name) },
      { target, name := last.name + name })
  | _ => none

def readSegments (column : Int) (last : ReadState) :
    List (List Char) → Option (List ReadSegment × ReadState)
  | [] => some ([], last)
  | text :: texts => do
    let (segment, last) ← readSegment column last text
    let (segments, last) ← readSegments segment.column last texts
    return (segment :: segments, last)

def readLine (last : ReadState) (text : List Char) : Option (List ReadSegment × ReadState) :=
  if text.isEmpty then some ([], last) else readSegments 0 last (Text.splitOnChar ',' text)

def readLines (last : ReadState) : List (List Char) → Option (List (List ReadSegment))
  | [] => some []
  | text :: texts => do
    let (line, last) ← readLine last text
    let lines ← readLines last texts
    return line :: lines

/-- The segments of a document's mappings, line by line. -/
def readMappings (mappings : String) : Option (List (List ReadSegment)) :=
  readLines {} (Text.splitOnChar ';' mappings.toList)

/-! ### What was written is read -/

def SegmentTarget.asRead (target : SegmentTarget) : ReadTarget :=
  ⟨target.source, target.line, target.column⟩

def Segment.asRead (segment : Segment) : ReadSegment where
  fields := if segment.target.isSome then 4 else 1
  column := segment.column
  target := segment.target.map SegmentTarget.asRead

theorem SegmentTarget.move_asRead (last target : SegmentTarget) :
    last.asRead.move ((target.source : Int) - last.source) ((target.line : Int) - last.line)
      ((target.column : Int) - last.column) = target.asRead := by
  simp only [asRead, ReadTarget.move, ReadTarget.mk.injEq]
  omega

variable (column : Nat) (last : SegmentTarget) (segment : Segment)

theorem exists_encodeSegment :
    ∃ values : List Int, values ≠ [] ∧
      (encodeSegment column last segment).1 = values.flatMap Vlq.encodeChars := by
  unfold encodeSegment
  cases segment.target with
  | none =>
    refine ⟨[segment.column - column], List.cons_ne_nil _ _, ?_⟩
    simp only [List.flatMap_cons, List.flatMap_nil, List.append_nil]
  | some target =>
    refine ⟨[segment.column - column, target.source - last.source, target.line - last.line,
      target.column - last.column], List.cons_ne_nil _ _, ?_⟩
    simp only [List.flatMap_cons, List.flatMap_nil, List.append_nil, List.append_assoc]

theorem encodeSegment_ne_nil : (encodeSegment column last segment).1 ≠ [] := by
  obtain ⟨values, hvalues, htext⟩ := exists_encodeSegment column last segment
  obtain ⟨value, rest, rfl⟩ := List.exists_cons_of_ne_nil hvalues
  rw [htext, List.flatMap_cons]
  exact List.append_ne_nil_of_left_ne_nil (Vlq.encodeChars_ne_nil value) _

theorem not_mem_encodeSegment {c : Char} (hc : c ∉ Vlq.alphabet) :
    c ∉ (encodeSegment column last segment).1 := by
  obtain ⟨values, -, htext⟩ := exists_encodeSegment column last segment
  rw [htext, List.mem_flatMap]
  rintro ⟨value, -, h⟩
  exact Vlq.not_mem_encodeChars hc value h

theorem readSegment_encodeSegment (name : Int) :
    readSegment column ⟨last.asRead, name⟩ (encodeSegment column last segment).1 =
      some (segment.asRead, ⟨(encodeSegment column last segment).2.asRead, name⟩) := by
  have hcolumn : (column : Int) + (segment.column - column) = segment.column := by omega
  cases htarget : segment.target with
  | none =>
    have hdecode := Vlq.decode_flatMap_encodeChars [(segment.column : Int) - column]
    simp only [List.flatMap_cons, List.flatMap_nil, List.append_nil] at hdecode
    simp only [encodeSegment, readSegment, Segment.asRead, htarget, hdecode, hcolumn]
    rfl
  | some target =>
    have hdecode := Vlq.decode_flatMap_encodeChars [(segment.column : Int) - column,
      target.source - last.source, target.line - last.line, target.column - last.column]
    simp only [List.flatMap_cons, List.flatMap_nil, List.append_nil] at hdecode
    simp only [encodeSegment, readSegment, Segment.asRead, htarget, List.append_assoc, hdecode,
      hcolumn, last.move_asRead target]
    rfl

/-- The texts of a line's segments are not empty, and no separator is in them. -/
theorem of_mem_encodeSegments {column : Nat} {last : SegmentTarget} {line : List Segment}
    {text : List Char} (h : text ∈ (encodeSegments column last line).1) :
    text ≠ [] ∧ ∀ c ∉ Vlq.alphabet, c ∉ text := by
  induction line generalizing column last with
  | nil => cases h
  | cons segment line ih =>
    rcases List.mem_cons.mp h with rfl | h
    · exact ⟨encodeSegment_ne_nil column last segment,
        fun c hc => not_mem_encodeSegment column last segment hc⟩
    · exact ih h

theorem readSegments_encodeSegments (line : List Segment) (name : Int) :
    readSegments column ⟨last.asRead, name⟩ (encodeSegments column last line).1 =
      some (line.map Segment.asRead, ⟨(encodeSegments column last line).2.asRead, name⟩) := by
  induction line generalizing column last with
  | nil => rfl
  | cons segment line ih =>
    simp only [encodeSegments, readSegments, readSegment_encodeSegment, Option.bind_eq_bind,
      Option.bind_some]
    have hcolumn : segment.asRead.column = (segment.column : Int) := rfl
    rw [hcolumn, ih]
    rfl

theorem readLine_encodeSegments (line : List Segment) (name : Int) :
    readLine ⟨last.asRead, name⟩ (Text.joinWith [','] (encodeSegments 0 last line).1) =
      some (line.map Segment.asRead, ⟨(encodeSegments 0 last line).2.asRead, name⟩) := by
  have hcomma : ',' ∉ Vlq.alphabet := Vlq.not_mem_alphabet (by decide)
  cases line with
  | nil => rfl
  | cons segment line =>
    have htexts : (encodeSegments 0 last (segment :: line)).1 ≠ [] := List.cons_ne_nil _ _
    have htext : Text.joinWith [','] (encodeSegments 0 last (segment :: line)).1 ≠ [] :=
      Text.joinWith_ne_nil htexts fun text h => (of_mem_encodeSegments h).1
    rw [readLine, if_neg (fun h => htext (List.isEmpty_iff.mp h)),
      Text.splitOnChar_joinWith htexts fun text h => (of_mem_encodeSegments h).2 ',' hcomma]
    exact readSegments_encodeSegments 0 last (segment :: line) name

theorem readLines_encodeLines (lines : List (List Segment)) (name : Int) :
    readLines ⟨last.asRead, name⟩ (encodeLines last lines) =
      some (lines.map (List.map Segment.asRead)) := by
  induction lines generalizing last with
  | nil => rfl
  | cons line lines ih =>
    simp only [encodeLines, readLines, readLine_encodeSegments, Option.bind_eq_bind,
      Option.bind_some, ih]
    rfl

theorem semicolon_not_mem_encodeLines {lines : List (List Segment)} {text : List Char}
    (h : text ∈ encodeLines last lines) : ';' ∉ text := by
  have hsemicolon : ';' ∉ Vlq.alphabet := Vlq.not_mem_alphabet (by decide)
  induction lines generalizing last with
  | nil => cases h
  | cons line lines ih =>
    rcases List.mem_cons.mp h with rfl | h
    · intro hmem
      rcases Text.mem_joinWith hmem with hmem | ⟨piece, hpiece, hmem⟩
      · exact absurd (List.mem_singleton.mp hmem) (by decide)
      · exact (of_mem_encodeSegments hpiece).2 ';' hsemicolon hmem
    · exact ih _ h

/-- Mappings of at least one line read back as the segments that they were written from. -/
theorem readMappings_encodeMappings {lines : List (List Segment)} (hne : lines ≠ []) :
    readMappings (encodeMappings lines) = some (lines.map (List.map Segment.asRead)) := by
  have htexts : encodeLines ⟨0, 0, 0⟩ lines ≠ [] := by
    obtain ⟨line, rest, rfl⟩ := List.exists_cons_of_ne_nil hne
    exact List.cons_ne_nil _ _
  rw [readMappings, encodeMappings, String.toList_ofList,
    Text.splitOnChar_joinWith htexts fun text h => semicolon_not_mem_encodeLines _ h]
  exact readLines_encodeLines ⟨0, 0, 0⟩ lines 0

end NotebookCell
