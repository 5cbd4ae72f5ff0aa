import NotebookCell.Proofs.Trace.Locations
import NotebookCell.SourceMap.Segment

/-!
# Runs and their segments

What the segments of a text say about each of its characters. A column lies in the run that the last
segment up to it begins; a column in front of all segments goes on with the run that the line began in.
-/

namespace NotebookCell

def Position.ahead (position : Position) (columns : Nat) : Position :=
  { position with column := position.column + columns }

namespace Segment

/-- The last segment of a line that begins at a column or before it. -/
def lastUpTo (column : Nat) (line : List Segment) : Option Segment :=
  (line.filter fun segment => segment.column ≤ column).getLast?

/-- The position of a column in the run that a segment begins. -/
def shows (files : List SourceFile) (segment : Segment) (column : Nat) : Option Position :=
  segment.target.bind fun target =>
    files[target.source]?.map fun file =>
      ⟨file, target.line, target.column + (column - segment.column)⟩

/-- The position that the segments from `start` on say a column has. `previous` is the position of the
column before `start`. -/
def shownAt (files : List SourceFile) (start : Nat) (previous : Option Position)
    (line : List Segment) (column : Nat) : Option Position :=
  match lastUpTo column line with
  | none => previous.map fun position => position.ahead (column + 1 - start)
  | some segment => segment.shows files column

/-- The segments begin at `start` or later and one after the other, and a run that ends has begun:
`mapped` says whether one has before `start`. -/
def Laid (start : Nat) (mapped : Bool) : List Segment → Prop
  | [] => True
  | segment :: rest =>
    start ≤ segment.column ∧ (segment.target = none → mapped = true) ∧
      Laid (segment.column + 1) segment.target.isSome rest

variable {start start' column : Nat} {mapped : Bool} {line : List Segment}

theorem Laid.earlier (h : Laid start' mapped line) (hstart : start ≤ start') :
    Laid start mapped line := by
  cases line with
  | nil => trivial
  | cons segment rest => exact ⟨Nat.le_trans hstart h.1, h.2⟩

theorem Laid.le_column (h : Laid start mapped line) {segment : Segment} (hmem : segment ∈ line) :
    start ≤ segment.column := by
  induction line generalizing start mapped with
  | nil => cases hmem
  | cons head rest ih =>
    rcases List.mem_cons.mp hmem with rfl | hmem
    · exact h.1
    · have hrest := ih h.2.2 hmem
      have hhead := h.1
      omega

theorem lastUpTo_append (column : Nat) (a b : List Segment) :
    lastUpTo column (a ++ b) = (lastUpTo column b).or (lastUpTo column a) := by
  rw [lastUpTo, List.filter_append, List.getLast?_append]
  rfl

theorem lastUpTo_singleton {segment : Segment} (h : segment.column ≤ column) :
    lastUpTo column [segment] = some segment := by
  have hfilter : [segment].filter (fun other => other.column ≤ column) = [segment] :=
    List.filter_cons_of_pos (decide_eq_true h)
  rw [lastUpTo, hfilter, List.getLast?_singleton]

theorem Laid.lastUpTo_eq_none (h : Laid start mapped line) (hlt : column < start) :
    lastUpTo column line = none := by
  rw [lastUpTo, List.getLast?_eq_none_iff, List.filter_eq_nil_iff]
  intro segment hmem hle
  have hstart := h.le_column hmem
  have hcolumn := of_decide_eq_true hle
  omega

theorem shownAt_append (files : List SourceFile) (previous : Option Position)
    (a b : List Segment) (column : Nat) :
    shownAt files start previous (a ++ b) column =
      match lastUpTo column b with
      | none => shownAt files start previous a column
      | some segment => segment.shows files column := by
  unfold shownAt
  rw [lastUpTo_append]
  cases lastUpTo column b <;> rfl

end Segment

/-! ### The segment in front of one character -/

theorem numberFile_spec (file : SourceFile) (files : List SourceFile) :
    files <+: (numberFile file files).2 ∧
      (numberFile file files).2[(numberFile file files).1]? = some file := by
  induction files with
  | nil => exact ⟨List.nil_prefix, rfl⟩
  | cons held rest ih =>
    unfold numberFile
    by_cases h : held = file
    · rw [if_pos (beq_iff_eq.mpr h), h]
      exact ⟨List.prefix_refl _, rfl⟩
    · rw [if_neg (fun heq => h (beq_iff_eq.mp heq))]
      exact ⟨List.cons_prefix_cons.mpr ⟨rfl, ih.1⟩, ih.2⟩

theorem exists_of_follows {previous : Option Position} {origin : Position}
    (h : follows previous origin = true) :
    ∃ position, previous = some position ∧ position.ahead 1 = origin := by
  cases previous with
  | none => cases h
  | some position =>
    simp only [follows, Bool.and_eq_true, beq_iff_eq] at h
    obtain ⟨⟨hfile, hline⟩, hcolumn⟩ := h
    refine ⟨position, rfl, ?_⟩
    rw [Position.ahead, hfile, hline, hcolumn]

/-- The segment that a character at a column needs, and the files with the one that it names. -/
def openingAt (files : List SourceFile) (column : Nat) (previous origin : Option Position) :
    List Segment × List SourceFile :=
  match origin with
  | none => (if previous.isSome then [{ column }] else [], files)
  | some origin =>
    if follows previous origin then ([], files)
    else
      let (source, files) := numberFile origin.file files
      ([{ column, target := some ⟨source, origin.line, origin.column⟩ }], files)

section

variable (files : List SourceFile) (column : Nat) (previous : Option Position)

theorem segmentLinesFrom_ne_nil (text : MappedText) :
    (segmentLinesFrom files column previous text).1 ≠ [] := by
  induction text generalizing files column previous with
  | nil => exact List.cons_ne_nil _ _
  | cons c text ih =>
    unfold segmentLinesFrom
    split
    · exact List.cons_ne_nil _ _
    · dsimp only
      split
      · split
        · split <;> exact List.cons_ne_nil _ _
        · exact ih files (column + 1) none
      · rename_i origin _
        split
        · exact ih files (column + 1) (some origin)
        · split <;> exact List.cons_ne_nil _ _

theorem segmentLinesFrom_newline {c : MappedChar} (hc : c.isNewline = true) (text : MappedText) :
    segmentLinesFrom files column previous (c :: text) =
      ([] :: (segmentLinesFrom files 0 none text).1, (segmentLinesFrom files 0 none text).2) :=
  if_pos hc

/-- A character on a line: its segment stands in front of the ones that follow on the line. -/
theorem segmentLinesFrom_cons {c : MappedChar} (hc : c.isNewline = false) (text : MappedText) :
    ∃ line lines final,
      segmentLinesFrom (openingAt files column previous c.origin).2 (column + 1) c.origin text =
        (line :: lines, final) ∧
      segmentLinesFrom files column previous (c :: text) =
        (((openingAt files column previous c.origin).1 ++ line) :: lines, final) := by
  have hne := segmentLinesFrom_ne_nil (openingAt files column previous c.origin).2 (column + 1)
    c.origin text
  cases hrest : segmentLinesFrom (openingAt files column previous c.origin).2 (column + 1) c.origin
      text with
  | mk found final =>
  rw [hrest] at hne
  obtain ⟨line, lines, rfl⟩ := List.exists_cons_of_ne_nil hne
  refine ⟨line, lines, final, rfl, ?_⟩
  unfold segmentLinesFrom
  rw [if_neg (by rw [hc]; exact Bool.false_ne_true)]
  cases horigin : c.origin with
  | none =>
    rw [horigin] at hrest
    simp only [openingAt] at hrest ⊢
    rw [hrest]
    split <;> rfl
  | some origin =>
    rw [horigin] at hrest
    simp only [openingAt] at hrest ⊢
    split
    · rename_i hfollows
      rw [if_pos hfollows] at hrest
      exact hrest
    · rename_i hfollows
      rw [if_neg hfollows] at hrest
      simp only [hrest]
      rfl

theorem prefix_openingAt (origin : Option Position) :
    files <+: (openingAt files column previous origin).2 := by
  unfold openingAt
  split
  · exact List.prefix_refl files
  · split
    · exact List.prefix_refl files
    · exact (numberFile_spec _ files).1

theorem shownAt_openingAt {origin : Option Position} {final : List SourceFile}
    (hfinal : (openingAt files column previous origin).2 <+: final) {place : Nat}
    (hplace : column ≤ place) :
    Segment.shownAt final column previous (openingAt files column previous origin).1 place =
      origin.map fun position => position.ahead (place - column) := by
  cases origin with
  | none =>
    cases previous with
    | none => rfl
    | some position =>
      simp only [openingAt, Option.isSome_some, if_true]
      rw [Segment.shownAt, Segment.lastUpTo_singleton hplace]
      rfl
  | some origin =>
    unfold openingAt at hfinal ⊢
    dsimp only at hfinal ⊢
    by_cases hfollows : follows previous origin = true
    · obtain ⟨position, rfl, rfl⟩ := exists_of_follows hfollows
      rw [if_pos hfollows, Segment.shownAt]
      have hcolumn : position.column + (place + 1 - column) =
          position.column + 1 + (place - column) := by omega
      simp only [Segment.lastUpTo, List.filter_nil, List.getLast?_nil, Option.map_some,
        Position.ahead, hcolumn]
    · rw [if_neg hfollows] at hfinal ⊢
      obtain ⟨more, rfl⟩ := hfinal
      have hfile := (numberFile_spec origin.file files).2
      have hlt := (List.getElem?_eq_some_iff.mp hfile).1
      rw [Segment.shownAt, Segment.lastUpTo_singleton hplace]
      simp only [Segment.shows, Option.bind_some, List.getElem?_append_left hlt, hfile,
        Option.map_some, Position.ahead]

/-- Behind a character its segment says no more than the character does. -/
theorem shownAt_openingAt_append {origin : Option Position} {final : List SourceFile}
    (hfinal : (openingAt files column previous origin).2 <+: final) (line : List Segment)
    {place : Nat} (hplace : column < place) :
    Segment.shownAt final column previous ((openingAt files column previous origin).1 ++ line)
      place = Segment.shownAt final (column + 1) origin line place := by
  have hahead : place - column = place + 1 - (column + 1) := by omega
  rw [Segment.shownAt_append, shownAt_openingAt files column previous hfinal (Nat.le_of_lt hplace),
    hahead]
  rfl

theorem laid_openingAt {origin : Option Position} {line : List Segment}
    (h : Segment.Laid (column + 1) origin.isSome line) :
    Segment.Laid column previous.isSome ((openingAt files column previous origin).1 ++ line) := by
  cases origin with
  | none =>
    cases previous with
    | none => exact h.earlier (Nat.le_succ column)
    | some position => exact ⟨Nat.le_refl column, fun _ => rfl, h⟩
  | some origin =>
    unfold openingAt
    dsimp only
    by_cases hfollows : follows previous origin = true
    · obtain ⟨position, rfl, -⟩ := exists_of_follows hfollows
      rw [if_pos hfollows]
      exact h.earlier (Nat.le_succ column)
    · rw [if_neg hfollows]
      exact ⟨Nat.le_refl column, fun hnone => absurd hnone (Option.some_ne_none _), h⟩

theorem numbered_openingAt {origin : Option Position} {segment : Segment}
    (h : segment ∈ (openingAt files column previous origin).1) {target : SegmentTarget}
    (htarget : segment.target = some target) :
    target.source < (openingAt files column previous origin).2.length := by
  cases origin with
  | none =>
    simp only [openingAt] at h
    split at h
    · rw [List.mem_singleton.mp h] at htarget
      cases htarget
    · cases h
  | some origin =>
    unfold openingAt at h ⊢
    dsimp only at h ⊢
    by_cases hfollows : follows previous origin = true
    · rw [if_pos hfollows] at h
      cases h
    · rw [if_neg hfollows] at h ⊢
      rw [List.mem_singleton.mp h] at htarget
      cases htarget
      exact (List.getElem?_eq_some_iff.mp (numberFile_spec origin.file files).2).1

/-! ### All characters -/

theorem prefix_segmentLinesFrom (text : MappedText) :
    files <+: (segmentLinesFrom files column previous text).2 := by
  induction text generalizing files column previous with
  | nil => exact List.prefix_refl files
  | cons c text ih =>
    cases hc : c.isNewline with
    | true =>
      rw [segmentLinesFrom_newline files column previous hc]
      exact ih files 0 none
    | false =>
      obtain ⟨line, lines, final, hrest, hcons⟩ :=
        segmentLinesFrom_cons files column previous hc text
      have hfinal := ih (openingAt files column previous c.origin).2 (column + 1) c.origin
      rw [hrest] at hfinal
      rw [hcons]
      exact (prefix_openingAt files column previous c.origin).trans hfinal

theorem length_segmentLinesFrom (text : MappedText) :
    (segmentLinesFrom files column previous text).1.length = text.newlines + 1 := by
  induction text generalizing files column previous with
  | nil => rfl
  | cons c text ih =>
    cases hc : c.isNewline with
    | true =>
      rw [segmentLinesFrom_newline files column previous hc, MappedText.newlines_cons, hc,
        List.length_cons, ih files 0 none]
      rfl
    | false =>
      obtain ⟨line, lines, final, hrest, hcons⟩ :=
        segmentLinesFrom_cons files column previous hc text
      have hlength := ih (openingAt files column previous c.origin).2 (column + 1) c.origin
      rw [hrest] at hlength
      rw [hcons, MappedText.newlines_cons, hc]
      exact hlength

theorem laid_segmentLinesFrom (text : MappedText) :
    ∃ line lines, (segmentLinesFrom files column previous text).1 = line :: lines ∧
      Segment.Laid column previous.isSome line ∧ ∀ other ∈ lines, Segment.Laid 0 false other := by
  induction text generalizing files column previous with
  | nil => exact ⟨[], [], rfl, trivial, fun _ h => by cases h⟩
  | cons c text ih =>
    cases hc : c.isNewline with
    | true =>
      obtain ⟨line, lines, hlines, hline, hothers⟩ := ih files 0 none
      rw [segmentLinesFrom_newline files column previous hc, hlines]
      refine ⟨[], line :: lines, rfl, trivial, ?_⟩
      intro other hother
      rcases List.mem_cons.mp hother with rfl | hother
      · exact hline
      · exact hothers other hother
    | false =>
      obtain ⟨line, lines, final, hrest, hcons⟩ :=
        segmentLinesFrom_cons files column previous hc text
      obtain ⟨line', lines', hlines, hline, hothers⟩ :=
        ih (openingAt files column previous c.origin).2 (column + 1) c.origin
      rw [hrest] at hlines
      cases hlines
      rw [hcons]
      exact ⟨_, lines, rfl, laid_openingAt files column previous hline, hothers⟩

theorem numbered_segmentLinesFrom (text : MappedText) :
    ∀ line ∈ (segmentLinesFrom files column previous text).1, ∀ segment ∈ line,
      ∀ target, segment.target = some target →
        target.source < (segmentLinesFrom files column previous text).2.length := by
  induction text generalizing files column previous with
  | nil =>
    intro line hline segment hsegment
    rw [List.mem_singleton.mp hline] at hsegment
    cases hsegment
  | cons c text ih =>
    intro found hfound segment hsegment target htarget
    cases hc : c.isNewline with
    | true =>
      rw [segmentLinesFrom_newline files column previous hc] at hfound ⊢
      rcases List.mem_cons.mp hfound with rfl | hfound
      · cases hsegment
      · exact ih files 0 none found hfound segment hsegment target htarget
    | false =>
      obtain ⟨line, lines, final, hrest, hcons⟩ :=
        segmentLinesFrom_cons files column previous hc text
      have hnumbered := ih (openingAt files column previous c.origin).2 (column + 1) c.origin
      have hprefix := prefix_segmentLinesFrom (openingAt files column previous c.origin).2
        (column + 1) c.origin text
      rw [hrest] at hnumbered hprefix
      rw [hcons] at hfound ⊢
      rcases List.mem_cons.mp hfound with rfl | hfound
      · rcases List.mem_append.mp hsegment with hsegment | hsegment
        · exact Nat.lt_of_lt_of_le
            (numbered_openingAt files column previous hsegment htarget) hprefix.length_le
        · exact hnumbered line List.mem_cons_self segment hsegment target htarget
      · exact hnumbered found (List.mem_cons_of_mem line hfound) segment hsegment target htarget

theorem shownAt_firstLine (front back : MappedText) {c : MappedChar} (hc : c.isNewline = false)
    (hfront : front.newlines = 0) :
    ∃ line lines, (segmentLinesFrom files column previous (front ++ c :: back)).1 = line :: lines ∧
      Segment.shownAt (segmentLinesFrom files column previous (front ++ c :: back)).2 column
        previous line (column + front.length) = c.origin := by
  induction front generalizing files column previous with
  | nil =>
    obtain ⟨line, lines, final, hrest, hcons⟩ :=
      segmentLinesFrom_cons files column previous hc back
    have hprefix := prefix_segmentLinesFrom (openingAt files column previous c.origin).2
      (column + 1) c.origin back
    obtain ⟨line', lines', hlines, hline, -⟩ :=
      laid_segmentLinesFrom (openingAt files column previous c.origin).2 (column + 1) c.origin back
    rw [hrest] at hprefix hlines
    cases hlines
    rw [List.nil_append, hcons]
    refine ⟨_, lines, rfl, ?_⟩
    -- the other segments of the line begin behind the character
    rw [List.length_nil, Nat.add_zero, Segment.shownAt_append,
      hline.lastUpTo_eq_none (Nat.lt_succ_self column)]
    simp only
    rw [shownAt_openingAt files column previous hprefix (Nat.le_refl column), Nat.sub_self]
    cases c.origin <;> rfl
  | cons d front ih =>
    rw [MappedText.newlines_cons] at hfront
    have hd : d.isNewline = false := by
      cases hd : d.isNewline with
      | false => rfl
      | true =>
        rw [hd, if_pos rfl] at hfront
        cases hfront
    obtain ⟨line, lines, final, hrest, hcons⟩ :=
      segmentLinesFrom_cons files column previous hd (front ++ c :: back)
    have hprefix := prefix_segmentLinesFrom (openingAt files column previous d.origin).2
      (column + 1) d.origin (front ++ c :: back)
    obtain ⟨line', lines', hlines, hshown⟩ :=
      ih (openingAt files column previous d.origin).2 (column + 1) d.origin (by omega)
    rw [hrest] at hprefix hlines hshown
    cases hlines
    rw [List.cons_append, hcons]
    refine ⟨_, lines, rfl, ?_⟩
    have hplace : column + (d :: front).length = column + 1 + front.length := by
      rw [List.length_cons]
      omega
    -- the segment of `d` and the run after it agree behind `d`
    rw [hplace, ← hshown]
    exact shownAt_openingAt_append files column previous hprefix line (by omega)

theorem shownAt_laterLine (front back : MappedText) {c : MappedChar} (hc : c.isNewline = false)
    (hfront : front.newlines ≠ 0) :
    ∃ line,
      (segmentLinesFrom files column previous (front ++ c :: back)).1[front.newlines]? = some line ∧
      Segment.shownAt (segmentLinesFrom files column previous (front ++ c :: back)).2 0 none line
        front.sinceNewline = c.origin := by
  induction front generalizing files column previous with
  | nil => exact absurd rfl hfront
  | cons d front ih =>
    cases hd : d.isNewline with
    | true =>
      rw [List.cons_append, segmentLinesFrom_newline files column previous hd,
        MappedText.newlines_cons, MappedText.sinceNewline_cons, hd, if_pos rfl, if_pos rfl,
        List.getElem?_cons_succ]
      by_cases hfirst : MappedText.newlines front = 0
      · obtain ⟨line, lines, hlines, hshown⟩ := shownAt_firstLine files 0 none front back hc hfirst
        rw [hlines, hfirst, if_pos rfl]
        rw [Nat.zero_add] at hshown
        exact ⟨line, rfl, hshown⟩
      · rw [if_neg hfirst]
        exact ih files 0 none hfirst
    | false =>
      obtain ⟨line, lines, final, hrest, hcons⟩ :=
        segmentLinesFrom_cons files column previous hd (front ++ c :: back)
      rw [MappedText.newlines_cons, hd, if_neg Bool.false_ne_true, Nat.add_zero] at hfront
      obtain ⟨found, hfound, hshown⟩ :=
        ih (openingAt files column previous d.origin).2 (column + 1) d.origin hfront
      obtain ⟨n, hn⟩ := Nat.exists_eq_succ_of_ne_zero hfront
      rw [hrest, hn] at hfound
      rw [hrest] at hshown
      rw [List.cons_append, hcons, MappedText.newlines_cons, MappedText.sinceNewline_cons, hd,
        if_neg Bool.false_ne_true, Nat.add_zero, if_neg hfront, hn]
      exact ⟨found, hfound, hshown⟩

end

theorem shownAt_segmentLines (front back : MappedText) {c : MappedChar}
    (hc : c.isNewline = false) :
    ∃ line, (segmentLines (front ++ c :: back)).1[front.newlines]? = some line ∧
      Segment.shownAt (segmentLines (front ++ c :: back)).2 0 none line front.sinceNewline =
        c.origin := by
  by_cases hfirst : front.newlines = 0
  · obtain ⟨line, lines, hlines, hshown⟩ := shownAt_firstLine [] 0 none front back hc hfirst
    rw [MappedText.sinceNewline_of_newlines_eq_zero hfirst, hfirst]
    rw [Nat.zero_add] at hshown
    exact ⟨line, by rw [segmentLines, hlines]; rfl, hshown⟩
  · exact shownAt_laterLine [] 0 none front back hc hfirst

end NotebookCell
