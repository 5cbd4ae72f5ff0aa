import NotebookCell.Proofs.SourceMap.Reading
import NotebookCell.Proofs.SourceMap.Runs

/-!
# Source maps read back

The mappings of a record's source map, read by a reader of the format, say of every character of the
record's source which place of which source it came from, and say nothing of made-up characters.
-/

namespace NotebookCell

def ReadSegment.lastUpTo (column : Nat) (line : List ReadSegment) : Option ReadSegment :=
  (line.filter fun segment => segment.column ≤ (column : Int)).getLast?

/-- A line of segments has no segment that could be left out or read in two ways: their columns increase,
each has one field or four, and one field alone only ends a run. -/
structure RegularLine (line : List ReadSegment) : Prop where
  increasing : line.Pairwise fun a b => a.column < b.column
  fields : ∀ segment ∈ line, segment.fields = 1 ∨ segment.fields = 4
  start : ∀ segment ∈ line.head?, segment.fields ≠ 1
  apart : line.IsChain fun a b => ¬(a.fields = 1 ∧ b.fields = 1)

/-- What a source map says of a column of a line: the place in its sources, or that there is none. -/
def SourceMap.Tells (map : SourceMap) (line : List ReadSegment) (column : Nat) :
    Option Position → Prop
  | none => ∀ segment, ReadSegment.lastUpTo column line = some segment → segment.fields = 1
  | some origin =>
    ∃ segment target, ∃ source : Nat, ∃ shown, ReadSegment.lastUpTo column line = some segment ∧
      segment.fields = 4 ∧ segment.target = some target ∧ target.source = source ∧
      map.contents[source]? = some origin.file.text ∧
      map.sources[source]? = some shown ∧ ShownAs origin.file.name shown ∧
      target.line = origin.line ∧ target.column + (column - segment.column) = origin.column

namespace Segment

theorem fields_asRead (segment : Segment) :
    segment.asRead.fields = 1 ∧ segment.target = none ∨
      segment.asRead.fields = 4 ∧ segment.target.isSome = true := by
  unfold asRead
  cases segment.target with
  | none => exact Or.inl ⟨rfl, rfl⟩
  | some target => exact Or.inr ⟨rfl, rfl⟩

theorem target_eq_none_of_fields {segment : Segment} (h : segment.asRead.fields = 1) :
    segment.target = none := by
  rcases segment.fields_asRead with ⟨-, hnone⟩ | ⟨hfour, -⟩
  · exact hnone
  · omega

theorem lastUpTo_asRead (column : Nat) (line : List Segment) :
    ReadSegment.lastUpTo column (line.map asRead) = (lastUpTo column line).map asRead := by
  have hsame : ((fun segment : ReadSegment => decide (segment.column ≤ (column : Int))) ∘ asRead) =
      fun segment : Segment => decide (segment.column ≤ column) := by
    funext segment
    exact decide_eq_decide.mpr Int.ofNat_le
  rw [ReadSegment.lastUpTo, lastUpTo, List.filter_map, List.getLast?_map, hsame]

variable {start : Nat} {mapped : Bool} {line : List Segment}

theorem Laid.increasing (h : Laid start mapped line) :
    (line.map asRead).Pairwise fun a b => a.column < b.column := by
  induction line generalizing start mapped with
  | nil => exact List.Pairwise.nil
  | cons segment rest ih =>
    rw [List.map_cons, List.pairwise_cons]
    refine ⟨?_, ih h.2.2⟩
    intro other hother
    obtain ⟨behind, hbehind, rfl⟩ := List.mem_map.mp hother
    have hle := h.2.2.le_column hbehind
    exact Int.ofNat_lt.mpr hle

theorem Laid.apart (h : Laid start mapped line) :
    (line.map asRead).IsChain fun a b => ¬(a.fields = 1 ∧ b.fields = 1) := by
  induction line generalizing start mapped with
  | nil => exact List.IsChain.nil
  | cons segment rest ih =>
    have hrest := ih h.2.2
    cases rest with
    | nil => exact List.IsChain.singleton _
    | cons next rest =>
      refine List.IsChain.cons_cons ?_ hrest
      rintro ⟨hends, hagain⟩
      have hmapped := h.2.2.2.1 (target_eq_none_of_fields hagain)
      rw [target_eq_none_of_fields hends] at hmapped
      cases hmapped

theorem Laid.regular (h : Laid start false line) : RegularLine (line.map asRead) where
  increasing := h.increasing
  apart := h.apart
  fields := by
    intro segment hsegment
    obtain ⟨written, -, rfl⟩ := List.mem_map.mp hsegment
    rcases written.fields_asRead with ⟨hfields, -⟩ | ⟨hfields, -⟩
    · exact Or.inl hfields
    · exact Or.inr hfields
  start := by
    cases line with
    | nil =>
      intro segment hsegment
      cases hsegment
    | cons head rest =>
      intro segment hsegment hfields
      cases hsegment
      exact Bool.false_ne_true (h.2.1 (target_eq_none_of_fields hfields))

end Segment

/-- What the segments of a record's source say is what its source map says. -/
theorem CellRecord.tells_of_shownAt (record : CellRecord) {line : List Segment} {column : Nat}
    (hnumbered : ∀ segment ∈ line, ∀ target, segment.target = some target →
      target.source < (segmentLines record.source).2.length) {origin : Option Position}
    (h : Segment.shownAt (segmentLines record.source).2 0 none line column = origin) :
    record.sourceMap.Tells (line.map Segment.asRead) column origin := by
  unfold Segment.shownAt at h
  cases hlast : Segment.lastUpTo column line with
  | none =>
    rw [hlast] at h
    subst h
    intro segment hsegment
    rw [Segment.lastUpTo_asRead, hlast] at hsegment
    cases hsegment
  | some last =>
    have hmem : last ∈ line ∧ last.column ≤ column := by
      have hfilter := List.mem_filter.mp (List.mem_of_getLast? hlast)
      exact ⟨hfilter.1, of_decide_eq_true hfilter.2⟩
    have hread : ReadSegment.lastUpTo column (line.map Segment.asRead) = some last.asRead := by
      rw [Segment.lastUpTo_asRead, hlast]
      rfl
    rw [hlast] at h
    cases htarget : last.target with
    | none =>
      simp only [Segment.shows, htarget, Option.bind_none] at h
      subst h
      intro segment hsegment
      rw [hread] at hsegment
      cases hsegment
      simp only [Segment.asRead, htarget, Option.isSome_none, Bool.false_eq_true, if_false]
    | some target =>
      have hlt := hnumbered last hmem.1 target htarget
      have hfile := List.getElem?_eq_getElem hlt
      simp only [Segment.shows, htarget, Option.bind_some, hfile, Option.map_some] at h
      subst h
      refine ⟨last.asRead, target.asRead, target.source, _, hread, ?_, ?_, rfl, ?_, ?_,
        SourceFile.shownAs_shownName _, rfl, ?_⟩
      · simp only [Segment.asRead, htarget, Option.isSome_some, if_true]
      · simp only [Segment.asRead, htarget, Option.map_some]
      · simp only [CellRecord.sourceMap, List.getElem?_map, hfile, Option.map_some]
      · simp only [CellRecord.sourceMap, List.getElem?_map, hfile, Option.map_some]
      · simp only [Segment.asRead, SegmentTarget.asRead]
        omega

/-- The source map of a record loses nothing of the origins in the record's source. A place is a line and
a column there, and the reader finds one line of segments for each line. -/
theorem sourceMap_reads_back (record : CellRecord) :
    ∃ lines, readMappings record.sourceMap.mappings = some lines ∧
      lines.length = record.source.newlines + 1 ∧ (∀ line ∈ lines, RegularLine line) ∧
      ∀ front c back, record.source = front ++ c :: back → c.isNewline = false →
        ∃ line, lines[MappedText.newlines front]? = some line ∧
          record.sourceMap.Tells line (MappedText.sinceNewline front) c.origin := by
  obtain ⟨first, others, hlines, hfirst, hothers⟩ := laid_segmentLinesFrom [] 0 none record.source
  have hne : (segmentLines record.source).1 ≠ [] := segmentLinesFrom_ne_nil [] 0 none record.source
  refine ⟨(segmentLines record.source).1.map (List.map Segment.asRead),
    readMappings_encodeMappings hne, ?_, ?_, ?_⟩
  · rw [List.length_map]
    exact length_segmentLinesFrom [] 0 none record.source
  · intro line hline
    obtain ⟨written, hwritten, rfl⟩ := List.mem_map.mp hline
    rw [segmentLines, hlines] at hwritten
    rcases List.mem_cons.mp hwritten with rfl | hwritten
    · exact hfirst.regular
    · exact (hothers written hwritten).regular
  · intro front c back hsource hc
    obtain ⟨line, hline, hshown⟩ := shownAt_segmentLines front back hc
    rw [← hsource] at hline hshown
    refine ⟨line.map Segment.asRead, ?_, record.tells_of_shownAt ?_ hshown⟩
    · rw [List.getElem?_map, hline]
      rfl
    · exact numbered_segmentLinesFrom [] 0 none record.source line (List.mem_of_getElem? hline)

end NotebookCell
