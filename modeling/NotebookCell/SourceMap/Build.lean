import NotebookCell.Cell.History
import NotebookCell.SourceMap.Segment
import NotebookCell.SourceMap.Vlq
import NotebookCell.Text.Lines

/-!
# Source maps

A source map, revision 3, of a record. Its mappings are the segments of the record's source: lines are
separated by semicolons and segments by commas, and numbers are written as differences. The generated
column starts anew on every line; source, line and column of the places run through the document.
-/

namespace NotebookCell

/-- Writes a segment after the generated column `column` and the place `last`, and gives the place that
the next one is written after. -/
def encodeSegment (column : Nat) (last : SegmentTarget) (segment : Segment) :
    List Char × SegmentTarget :=
  let start := Vlq.encodeChars ((segment.column : Int) - column)
  match segment.target with
  | none => (start, last)
  | some target =>
    (start ++ Vlq.encodeChars ((target.source : Int) - last.source) ++
      Vlq.encodeChars ((target.line : Int) - last.line) ++
      Vlq.encodeChars ((target.column : Int) - last.column), target)

def encodeSegments (column : Nat) (last : SegmentTarget) :
    List Segment → List (List Char) × SegmentTarget
  | [] => ([], last)
  | segment :: rest =>
    let (text, last) := encodeSegment column last segment
    let (texts, last) := encodeSegments segment.column last rest
    (text :: texts, last)

def encodeLines (last : SegmentTarget) : List (List Segment) → List (List Char)
  | [] => []
  | line :: lines =>
    let (texts, last) := encodeSegments 0 last line
    Text.joinWith [','] texts :: encodeLines last lines

def encodeMappings (lines : List (List Segment)) : String :=
  String.ofList (Text.joinWith [';'] (encodeLines ⟨0, 0, 0⟩ lines))

/-- A source map document; its version is 3 and it lists no names. -/
structure SourceMap where
  file : String
  sources : List String
  contents : List String
  mappings : String
deriving DecidableEq

def SourceMap.version : Nat := 3

def CellRecord.sourceMap (record : CellRecord) : SourceMap :=
  let (lines, files) := segmentLines record.source
  { file := record.url
    sources := files.map SourceFile.shownName
    contents := files.map SourceFile.text
    mappings := encodeMappings lines }

end NotebookCell
