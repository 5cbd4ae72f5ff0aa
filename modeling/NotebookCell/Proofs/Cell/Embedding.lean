import NotebookCell.Proofs.Cell.Wrapper
import NotebookCell.Proofs.Text.Pieces
import NotebookCell.Proofs.Trace.Locating
import NotebookCell.Proofs.Trace.Locations

/-!
# Cells in their wrapper

A wrapped cell is one line of header, the cell as it was, and a footer whose comment shows the name of the
cell. So every character of a cell stands one line further down, in its own column. No name ends the
comment, and what follows on a new line is not in it.
-/

namespace NotebookCell

def lineTerminators : List Char := ['\n', '\r', '\u2028', '\u2029']

def lineBoundaries : List Char :=
  ['\n', '\x0b', '\x0c', '\r', '\x1c', '\x1d', '\x1e', '\x85', '\u2028', '\u2029']

def nameComment (name : Option String) : List Char := "//# sourceUrl=".toList ++ commentLabel name

theorem nameComment_eq (name : Option String) :
    nameComment name = "//# sourceUrl=".toList ++ commentLabel name := by
  delta nameComment
  rfl

/-- The line comment that starts at a place of a script: it goes up to the end of the line. -/
def lineCommentAt (script : List Char) (place : Nat) : List Char :=
  (script.drop place).takeWhile fun c => c ∉ lineTerminators

/-- The cell stands in its wrapper as it was, and the name stays in its comment. Header and footer are
nobody's text, and the header is one line. Whatever follows the wrapper on a new line, the comment that
starts in the footer ends with the wrapper. -/
structure Embedded (source : MappedText) (id : Int) (name : Option String) : Prop where
  text : ∃ line, '\n' ∉ line ∧
    wrapCell source id name =
      .ofChars (line ++ ['\n']) none ++ source ++
        .ofChars ("\n\x7d)//# sourceUrl=".toList ++ commentLabel name) none ∧
    ∀ behind : List Char, (∀ c ∈ behind.head?, c ∈ lineTerminators) →
      lineCommentAt ((wrapCell source id name).chars ++ behind)
        ((line ++ ['\n']).length + source.chars.length + 3) = nameComment name
  label : ∀ c ∈ commentLabel name, c ∉ lineTerminators
  sameLabel : ∀ shown, name = some shown → shown ≠ "" → (∀ c ∈ shown.toList, c ∉ lineBoundaries) →
    commentLabel name = shown.toList

/-! ### The label -/

theorem Text.isLineBoundary_iff {c : Char} : isLineBoundary c = true ↔ c ∈ lineBoundaries := by
  constructor
  · intro h
    have hcode : c.toNat = 10 ∨ c.toNat = 11 ∨ c.toNat = 12 ∨ c.toNat = 13 ∨ c.toNat = 28 ∨ c.toNat = 29 ∨
        c.toNat = 30 ∨ c.toNat = 133 ∨ c.toNat = 8232 ∨ c.toNat = 8233 := by
      simp only [isLineBoundary, Bool.or_eq_true, Bool.and_eq_true, decide_eq_true_eq, beq_iff_eq] at h
      omega
    rw [← Char.ofNat_toNat c]
    rcases hcode with h | h | h | h | h | h | h | h | h | h <;> rw [h] <;> decide
  · have hall : lineBoundaries.all isLineBoundary = true := by decide
    exact List.all_eq_true.mp hall c

theorem Text.isLineBoundary_of_mem_boundaryLinesFrom {line text piece : List Char}
    (hline : ∀ c ∈ line, isLineBoundary c = false) (hpiece : piece ∈ boundaryLinesFrom line text) :
    ∀ c ∈ piece, isLineBoundary c = false := by
  have hread : ∀ c ∈ line.reverse, isLineBoundary c = false :=
    fun c hc => hline c (List.mem_reverse.mp hc)
  have hnone : ∀ c ∈ ([] : List Char), isLineBoundary c = false := fun c hc => by cases hc
  fun_induction boundaryLinesFrom line text with
  | case1 => cases hpiece
  | case2 => rwa [List.mem_singleton.mp hpiece]
  | case3 line rest ih =>
    rcases List.mem_cons.mp hpiece with rfl | hpiece
    · exact hread
    · exact ih hnone hpiece hnone
  | case4 line c rest _ _ ih =>
    rcases List.mem_cons.mp hpiece with rfl | hpiece
    · exact hread
    · exact ih hnone hpiece hnone
  | case5 line c rest _ hc ih =>
    have hlonger : ∀ d ∈ c :: line, isLineBoundary d = false :=
      List.forall_mem_cons.mpr ⟨Bool.eq_false_iff.mpr hc, hline⟩
    exact ih hlonger hpiece fun d hd => hlonger d (List.mem_reverse.mp hd)

theorem Text.boundaryLinesFrom_of_no_boundary {text : List Char} (line : List Char)
    (h : ∀ c ∈ text, isLineBoundary c = false) (hne : line.reverse ++ text ≠ []) :
    boundaryLinesFrom line text = [line.reverse ++ text] := by
  fun_induction boundaryLinesFrom line text with
  | case1 line hempty =>
    rw [List.isEmpty_iff.mp hempty] at hne
    exact absurd rfl hne
  | case2 line _ => rw [List.append_nil]
  | case3 line rest _ => exact absurd (h '\r' List.mem_cons_self) (by decide)
  | case4 line c rest _ hc _ => exact absurd hc (by rw [h c List.mem_cons_self]; decide)
  | case5 line c rest _ _ ih =>
    have hsame : (c :: line).reverse ++ rest = line.reverse ++ c :: rest := by
      rw [List.reverse_cons, List.append_assoc, List.singleton_append]
    rw [ih (fun d hd => h d (List.mem_cons_of_mem c hd)) (hsame ▸ hne), hsame]

theorem not_mem_lineTerminators_of_mem_commentLabel {name : Option String} {c : Char}
    (h : c ∈ commentLabel name) : c ∉ lineTerminators := by
  have hends : lineTerminators ⊆ lineBoundaries := by decide
  intro hc
  rcases Text.mem_joinWith h with hspace | ⟨piece, hpiece, hmem⟩
  · rw [List.mem_singleton.mp hspace] at hc
    exact absurd hc (by decide)
  · have hinside := Text.isLineBoundary_of_mem_boundaryLinesFrom (fun d hd => by cases hd) hpiece c hmem
    rw [Text.isLineBoundary_iff.mpr (hends hc)] at hinside
    cases hinside

theorem commentLabel_of_no_boundary {shown : String} (hne : shown ≠ "")
    (h : ∀ c ∈ shown.toList, c ∉ lineBoundaries) : commentLabel (some shown) = shown.toList := by
  have hfree : ∀ c ∈ shown.toList, Text.isLineBoundary c = false :=
    fun c hc => Bool.eq_false_iff.mpr fun hbreak => h c hc (Text.isLineBoundary_iff.mp hbreak)
  have hchars : shown.toList ≠ [] := fun hnil => hne (String.toList_inj.mp hnil)
  have hname : nonEmptyName (some shown) = some shown := by
    have hempty : shown.isEmpty = false := by
      rw [Bool.eq_false_iff, ne_eq, String.isEmpty_iff]
      exact hne
    rw [nonEmptyName, Option.filter_some, hempty]
    rfl
  rw [commentLabel, hname, Option.getD_some, Text.boundaryLines,
    Text.boundaryLinesFrom_of_no_boundary [] hfree hchars]
  rfl

/-! ### The wrapper around a cell -/

def headerLine (id : Int) : List Char := headerWords id ++ '(' :: (listedNames ++ ") \x7b".toList)

theorem wrapperHeader_eq_line (id : Int) : wrapperHeader id = headerLine id ++ ['\n'] := by
  have hend : ") \x7b\n".toList = ") \x7b".toList ++ ['\n'] := by decide
  rw [wrapperHeader_eq, headerLine, hend, List.append_assoc, List.cons_append, List.append_assoc]

theorem newline_not_mem_headerLine (id : Int) : '\n' ∉ headerLine id := by
  have hfront : '\n' ∉ "async function __cell_".toList := by decide
  have hback : '\n' ∉ "__".toList := by decide
  have hrest : '\n' ∉ '(' :: (listedNames ++ ") \x7b".toList) := by decide
  rw [headerLine, headerWords_eq, List.cons_append, List.mem_cons, List.mem_append, List.mem_append,
    List.mem_append]
  rintro (h | (h | h | h) | h)
  · exact absurd h (by decide)
  · exact hfront h
  · rcases Text.isDigit_or_minus_of_mem h with h | h <;> exact absurd h (by decide)
  · exact hback h
  · exact hrest h

theorem wrapperFooter_eq_comment (name : Option String) :
    wrapperFooter name = "\n\x7d)".toList ++ nameComment name := by
  have hwords : "\n\x7d)//# sourceUrl=".toList = "\n\x7d)".toList ++ "//# sourceUrl=".toList := by decide
  delta wrapperFooter
  rw [nameComment_eq, hwords, List.append_assoc]

theorem not_mem_lineTerminators_of_mem_nameComment {name : Option String} :
    ∀ c ∈ nameComment name, c ∉ lineTerminators := by
  have hmark : ("//# sourceUrl=".toList.all fun c => c ∉ lineTerminators) = true := by decide
  intro c hc
  rcases List.mem_append.mp hc with hc | hc
  · exact of_decide_eq_true (List.all_eq_true.mp hmark c hc)
  · exact not_mem_lineTerminators_of_mem_commentLabel hc

theorem lineCommentAt_wrapCell (source : MappedText) (id : Int) (name : Option String)
    {behind : List Char} (h : ∀ c ∈ behind.head?, c ∈ lineTerminators) :
    lineCommentAt ((wrapCell source id name).chars ++ behind)
      ((wrapperHeader id).length + source.chars.length + 3) = nameComment name := by
  have hsplit : (wrapCell source id name).chars ++ behind =
      (wrapperHeader id ++ source.chars ++ "\n\x7d)".toList) ++ (nameComment name ++ behind) := by
    rw [chars_wrapCell, wrapperFooter_eq_comment]
    simp only [List.append_assoc]
  have hlength : (wrapperHeader id).length + source.chars.length + 3 =
      (wrapperHeader id ++ source.chars ++ "\n\x7d)".toList).length := by
    rw [List.length_append, List.length_append]
    rfl
  have hstop : (behind.takeWhile fun c => c ∉ lineTerminators) = [] := by
    cases behind with
    | nil => rfl
    | cons c behind => exact List.takeWhile_cons_of_neg (by simpa using h c rfl)
  rw [lineCommentAt, hsplit, hlength, List.drop_left, List.takeWhile_append_of_pos, hstop,
    List.append_nil]
  exact fun c hc => decide_eq_true (not_mem_lineTerminators_of_mem_nameComment c hc)

/-! ### Places of a cell -/

namespace MappedText

theorem newlines_append (a b : MappedText) : newlines (a ++ b) = a.newlines + b.newlines :=
  List.countP_append

theorem sinceNewline_append_newline {c : MappedChar} (hc : c.isNewline = true) (front text : MappedText) :
    sinceNewline (front ++ c :: text) = text.sinceNewline := by
  have hstop : (c :: front.reverse).takeWhile (fun c => !c.isNewline) = [] :=
    List.takeWhile_cons_of_neg (by rw [hc]; decide)
  rw [sinceNewline, sinceNewline, List.reverse_append, List.reverse_cons, List.append_assoc,
    List.singleton_append, List.takeWhile_append, hstop, List.append_nil]
  split
  · rename_i hwhole
    rw [(List.takeWhile_sublist _).eq_of_length hwhole]
  · rfl

end MappedText

theorem Position.origin_tag {p : Position} {chars : List Char} {place : Nat} {c : MappedChar}
    (h : (p.tag chars)[place]? = some c) :
    ∃ q : Position, c.origin = some q ∧ q.file = p.file ∧
      q.line = p.line + MappedText.newlines ((p.tag chars).take place) ∧
      q.column + 1 = MappedText.columnPast (p.column + 1) ((p.tag chars).take place) := by
  induction chars generalizing p place with
  | nil => cases h
  | cons ch rest ih =>
    cases place with
    | zero =>
      obtain rfl := Option.some.inj h
      exact ⟨p, rfl, rfl, rfl, rfl⟩
    | succ place =>
      have hnewline : (⟨[ch], some p⟩ : MappedChar).isNewline = (ch == '\n') :=
        MappedChar.isNewline_of_glyph rfl
      obtain ⟨q, horigin, hfile, hline, hcolumn⟩ := ih (p := p.next ch) h
      rw [tag, List.take_succ_cons, MappedText.newlines_cons]
      by_cases hend : ch = '\n'
      · have hnext : p.next ch = { p with line := p.line + 1, column := 0 } := if_pos hend
        have hbreak : (⟨[ch], some p⟩ : MappedChar).isNewline = true := by
          rw [hnewline, hend]
          rfl
        rw [MappedText.columnPast_newline hbreak, hbreak, if_pos rfl]
        rw [hnext] at hfile hline hcolumn ⊢
        exact ⟨q, horigin, hfile, hline.trans (Nat.add_right_comm p.line 1 _), hcolumn⟩
      · have hnext : p.next ch = { p with column := p.column + 1 } := if_neg hend
        have hgo : (⟨[ch], some p⟩ : MappedChar).isNewline = false :=
          hnewline.trans (beq_eq_false_iff_ne.mpr hend)
        rw [MappedText.columnPast_cons hgo, hgo, if_neg Bool.false_ne_true]
        rw [hnext] at hfile hline hcolumn ⊢
        exact ⟨q, horigin, hfile, hline, hcolumn⟩

def SourceFile.positionAt (file : SourceFile) (place : Nat) : Position :=
  ⟨file, MappedText.newlines (file.mapped.take place), MappedText.sinceNewline (file.mapped.take place)⟩

theorem SourceFile.origin_mapped {file : SourceFile} {place : Nat} {c : MappedChar}
    (h : file.mapped[place]? = some c) : c.origin = some (file.positionAt place) := by
  obtain ⟨q, horigin, hfile, hline, hcolumn⟩ := Position.origin_tag h
  have hcounted : q.column + 1 = MappedText.columnAt file.mapped place :=
    hcolumn.trans (MappedText.columnAt_eq file.mapped place).symm
  rw [MappedText.columnAt, Nat.add_comm 1] at hcounted
  rw [horigin, positionAt, Option.some.injEq, Position.mk.injEq]
  exact ⟨hfile, hline.trans (Nat.zero_add _), Nat.add_right_cancel hcounted⟩

theorem locate_behind_line {line source : MappedText} {ending c : MappedChar} {place : Nat}
    {origin : Position} (hline : line.newlines = 0) (hending : ending.isNewline = true)
    (hc : source[place]? = some c) (horigin : c.origin = some origin) (footer : MappedText) :
    locate (line ++ ending :: (source ++ footer))
      (MappedText.newlines (source.take place) + 2 : Nat)
      (MappedText.sinceNewline (source.take place) + 1 : Nat) = some origin := by
  obtain ⟨hplace, hget⟩ := List.getElem?_eq_some_iff.mp hc
  have hfront : (line ++ ending :: (source ++ footer)).take (line.length + (place + 1)) =
      line ++ ending :: source.take place := by
    rw [List.take_length_add_append, List.take_succ_cons,
      List.take_append_of_le_length (Nat.le_of_lt hplace)]
  have hrest : (line ++ ending :: (source ++ footer)).drop (line.length + (place + 1)) =
      c :: (source.drop (place + 1) ++ footer) := by
    rw [List.drop_length_add_append, List.drop_succ_cons,
      List.drop_append_of_le_length (Nat.le_of_lt hplace), List.drop_eq_getElem_cons hplace, hget,
      List.cons_append]
  have hin : line.length + (place + 1) < (line ++ ending :: (source ++ footer)).length := by
    simp only [List.length_append, List.length_cons]
    omega
  have hlocated := locate_place hin
  rw [MappedText.lineAt, MappedText.columnAt, hfront, MappedText.newlines_append, hline,
    MappedText.newlines_cons, hending, if_pos rfl, MappedText.sinceNewline_append_newline hending, hrest,
    MappedText.originOnLine?, horigin, Nat.zero_add, Nat.add_comm 1, Nat.add_comm 1] at hlocated
  exact hlocated

theorem newlines_ofChars {chars : List Char} (h : '\n' ∉ chars) (origin : Option Position) :
    MappedText.newlines (.ofChars chars origin) = 0 := by
  rw [MappedText.newlines, List.countP_eq_zero]
  intro c hc
  obtain ⟨ch, hch, rfl⟩ := List.mem_map.mp hc
  rw [MappedChar.isNewline_of_glyph rfl, beq_iff_eq]
  exact fun hend => h (hend ▸ hch)

/-- A cell stands in its wrapper as it was, and the name stays in its comment. Every character of a file
is found one line down from where it stands in the file. -/
theorem wrapCell_embeds (id : Int) (name : Option String) :
    (∀ source, Embedded source id name) ∧
      ∀ (file : SourceFile) (place : Nat) (c : MappedChar), file.mapped[place]? = some c →
        c.origin = some (file.positionAt place) ∧
          locate (wrapCell file.mapped id name) ((file.positionAt place).line + 2)
            ((file.positionAt place).column + 1) = some (file.positionAt place) := by
  constructor
  · intro source
    refine ⟨⟨headerLine id, newline_not_mem_headerLine id, ?_, fun behind hbehind => ?_⟩, fun c =>
      not_mem_lineTerminators_of_mem_commentLabel, ?_⟩
    · rw [wrapCell, wrapperHeader_eq_line]
      rfl
    · rw [← wrapperHeader_eq_line]
      exact lineCommentAt_wrapCell source id name hbehind
    · rintro shown rfl hne hfree
      exact commentLabel_of_no_boundary hne hfree
  · intro file place c hc
    have horigin := SourceFile.origin_mapped hc
    refine ⟨horigin, ?_⟩
    have hwrapped : wrapCell file.mapped id name =
        MappedText.ofChars (headerLine id) none ++
          ⟨['\n'], none⟩ :: (file.mapped ++ MappedText.ofChars (wrapperFooter name) none) := by
      rw [wrapCell, wrapperHeader_eq_line, MappedText.ofChars, List.map_append, List.append_assoc,
        List.append_assoc]
      rfl
    rw [hwrapped]
    exact locate_behind_line (newlines_ofChars (newline_not_mem_headerLine id) none) rfl hc horigin _

theorem wrapCell_embeds_applied :
    commentLabel (some "cell 7") = "cell 7".toList ∧
      lineCommentAt ((wrapCell twoLines.mapped 3 (some "cell 7")).chars ++ (sourceUrlMarker 3).toList) 64 =
        "//# sourceUrl=cell 7".toList ∧
      locate (wrapCell twoLines.mapped 3 (some "cell 7")) 3 1 = some ⟨twoLines, 1, 0⟩ := by
  obtain ⟨hwrapped, hplaces⟩ := wrapCell_embeds 3 (some "cell 7")
  have hembedded := hwrapped twoLines.mapped
  have hlast : twoLines.mapped[2]? = some ⟨['b'], some ⟨twoLines, 1, 0⟩⟩ := by decide +kernel
  have hfree : ("cell 7".toList.all fun c => c ∉ lineBoundaries) = true := by decide
  have hlabel := hembedded.sameLabel "cell 7" rfl (by decide) fun c hc =>
    of_decide_eq_true (List.all_eq_true.mp hfree c hc)
  have hposition : twoLines.positionAt 2 = ⟨twoLines, 1, 0⟩ := by decide +kernel
  have hplace := (hplaces twoLines 2 _ hlast).2
  rw [hposition] at hplace
  obtain ⟨line, -, htext, hends⟩ := hembedded.text
  have hstart : (line ++ ['\n']).length + twoLines.mapped.chars.length + 3 = 64 := by
    have hlength := congrArg List.length htext
    rw [List.length_append, List.length_append, MappedText.ofChars, MappedText.ofChars,
      List.length_map, List.length_map, hlabel] at hlength
    have hwhole : (wrapCell twoLines.mapped 3 (some "cell 7")).length = 84 := by decide +kernel
    have hfooter : ("\n\x7d)//# sourceUrl=".toList ++ "cell 7".toList).length = 23 := by decide
    have hsource : twoLines.mapped.length = 3 ∧ twoLines.mapped.chars.length = 3 := by decide +kernel
    omega
  have hbreak : (sourceUrlMarker 3).toList.head? = some '\n' := by decide +kernel
  have hcomment := hends (sourceUrlMarker 3).toList fun c hc => by
    obtain rfl := Option.mem_some.mp (hbreak ▸ hc)
    decide
  rw [hstart, nameComment_eq, hlabel] at hcomment
  exact ⟨hlabel, hcomment.trans (by decide +kernel), hplace⟩

/-- Each boundary becomes one space; a carriage return and a line feed are one boundary. -/
example : commentLabel (some "a\r\n\u2028b.js\n") = "a  b.js".toList := by decide

end NotebookCell
