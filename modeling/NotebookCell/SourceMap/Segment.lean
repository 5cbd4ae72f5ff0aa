import NotebookCell.Provenance.MappedText

/-!
# Mapping segments

A segment starts a run of generated characters on one line. It names the place that the run's first
character came from, the following characters coming from the places right after it; or it has no
place, and ends such a run. Runs nobody wrote need no segment at the start of a line.
-/

namespace NotebookCell

/-- The place of a segment: a source by its number, a line and a column. -/
structure SegmentTarget where
  source : Nat
  line : Nat
  column : Nat
deriving DecidableEq

structure Segment where
  column : Nat
  target : Option SegmentTarget := none
deriving DecidableEq

/-- `origin` is the place right after `previous`. -/
def follows (previous : Option Position) (origin : Position) : Bool :=
  match previous with
  | none => false
  | some p => p.file == origin.file && p.line == origin.line && p.column + 1 == origin.column

def numberFile (file : SourceFile) : List SourceFile → Nat × List SourceFile
  | [] => (0, [file])
  | held :: rest =>
    if held == file then (0, held :: rest)
    else
      let (number, files) := numberFile file rest
      (number + 1, held :: files)

/-- The segments line by line and the files in the order of their numbers. `column` and `previous` are
the generated column and the origin of the character before, both of the current line. -/
def segmentLinesFrom (files : List SourceFile) (column : Nat) (previous : Option Position) :
    MappedText → List (List Segment) × List SourceFile
  | [] => ([[]], files)
  | c :: rest =>
    if c.isNewline then
      let (lines, files) := segmentLinesFrom files 0 none rest
      ([] :: lines, files)
    else
      let opened (segment : Segment) (result : List (List Segment) × List SourceFile) :=
        match result with
        | (line :: lines, files) => ((segment :: line) :: lines, files)
        | ([], files) => ([[segment]], files)
      match c.origin with
      | none =>
        let result := segmentLinesFrom files (column + 1) none rest
        if previous.isSome then opened { column } result else result
      | some origin =>
        if follows previous origin then segmentLinesFrom files (column + 1) (some origin) rest
        else
          let (source, files) := numberFile origin.file files
          opened { column, target := some ⟨source, origin.line, origin.column⟩ }
            (segmentLinesFrom files (column + 1) (some origin) rest)

def segmentLines (text : MappedText) : List (List Segment) × List SourceFile :=
  segmentLinesFrom [] 0 none text

end NotebookCell
