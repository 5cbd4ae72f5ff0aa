import NotebookCell.Cell.Wrapper
import NotebookCell.Pass.Imports
import NotebookCell.Pass.Scope
import NotebookCell.Proofs.Syntax.Enclosed
import NotebookCell.Proofs.Text.Numerals

/-!
# Where the body of a wrapped cell ends

The body that is found in a faithful tree of a wrapped cell is the block of the wrapper, from the brace
of the header up to that of the footer, unless the name of the cell helps to hide the footer: a name can
close a comment that the cell opens, or hold a brace of its own.
-/

namespace NotebookCell

variable {doc : Document} {body parameters leaf : SyntaxTree} {id : Int} {name : Option String}
  {cell : List Char} {opened headed listed : Nat}

/-! ### The text of a wrapped cell -/

def headerWords (id : Int) : List Char := "(async function ".toList ++ (wrapperName id).toList

def listedNames : List Char := "__global, __import, console".toList

def footerWords : List Char := ")//# sourceUrl=".toList

theorem chars_wrapCell (source : MappedText) (id : Int) (name : Option String) :
    (wrapCell source id name).chars = wrapperHeader id ++ (source.chars ++ wrapperFooter name) := by
  rw [wrapCell, MappedText.chars_append, MappedText.chars_append, MappedText.chars_ofChars,
    MappedText.chars_ofChars, List.append_assoc]

theorem wrapperHeader_eq (id : Int) :
    wrapperHeader id = headerWords id ++ '(' :: (listedNames ++ ") \x7b\n".toList) := by
  have hnames : String.intercalate ", " [namespaceName, importName, consoleName] =
      "__global, __import, console" := by decide
  delta wrapperHeader headerWords listedNames
  rw [hnames]
  simp only [String.toList_append, List.append_assoc]
  rfl

theorem wrapperFooter_eq (name : Option String) :
    wrapperFooter name = '\n' :: '}' :: (footerWords ++ commentLabel name) := by
  have hwords : "\n\x7d)//# sourceUrl=".toList = '\n' :: '}' :: footerWords := by decide
  delta wrapperFooter
  rw [hwords, List.cons_append, List.cons_append]

theorem headerWords_eq (id : Int) : headerWords id =
    '(' :: ("async function __cell_".toList ++ ((toString id).toList ++ "__".toList)) := by
  have hname : (wrapperName id).toList = "__cell_".toList ++ ((toString id).toList ++ "__".toList) := by
    delta wrapperName
    simp only [String.toList_append, List.append_assoc]
    rfl
  delta headerWords
  rw [hname]
  rfl

/-- No character of the header starts a comment, but for a minus sign. -/
theorem not_mem_wrapperHeader (id : Int) {c : Char} (hc : c ∈ ['/', '<', '>']) :
    c ∉ wrapperHeader id := by
  rw [wrapperHeader_eq, headerWords_eq, ← List.cons_append, List.append_assoc, List.append_assoc,
    List.mem_append, List.mem_append, not_or, not_or]
  simp only [List.mem_cons, List.not_mem_nil, or_false] at hc
  rcases hc with rfl | rfl | rfl
  · exact ⟨by decide, fun h => absurd (Text.isDigit_or_minus_of_mem h) (by decide), by decide⟩
  · exact ⟨by decide, fun h => absurd (Text.isDigit_or_minus_of_mem h) (by decide), by decide⟩
  · exact ⟨by decide, fun h => absurd (Text.isDigit_or_minus_of_mem h) (by decide), by decide⟩

theorem open_not_mem_headerWords (id : Int) : '(' ∉ (headerWords id).tail := by
  have hfront : '(' ∉ "async function __cell_".toList := by decide
  have hback : '(' ∉ "__".toList := by decide
  rw [headerWords_eq, List.tail_cons, List.mem_append, List.mem_append, not_or, not_or]
  refine ⟨hfront, fun h => ?_, hback⟩
  rcases Text.isDigit_or_minus_of_mem h with h | h
  · exact absurd h (by decide)
  · exact absurd h (by decide)

theorem length_wrapperHeader (id : Int) :
    (wrapperHeader id).length = (headerWords id).length + 32 := by
  have hrest : ('(' :: (listedNames ++ ") \x7b\n".toList)).length = 32 := by decide
  rw [wrapperHeader_eq, List.length_append, hrest]

theorem Document.text_ofTree (text : List Char) (root : SyntaxTree) :
    (Document.ofTree text root).text = text := rfl

theorem pair_infix {α : Type} {a b : α} {items : List α} {k : Nat} (h : items[k]? = some a)
    (h' : items[k + 1]? = some b) : [a, b] <:+: items := by
  obtain ⟨hlt, ha⟩ := List.getElem?_eq_some_iff.mp h
  obtain ⟨hlt', hb⟩ := List.getElem?_eq_some_iff.mp h'
  refine ⟨items.take k, items.drop (k + 1 + 1), ?_⟩
  have hrest := List.drop_eq_getElem_cons hlt
  rw [List.drop_eq_getElem_cons hlt', ha, hb] at hrest
  rw [List.append_assoc]
  exact (congrArg (items.take k ++ ·) hrest.symm).trans (List.take_append_drop k items)

section Places

variable (htext : doc.text = wrapperHeader id ++ (cell ++ wrapperFooter name))

include htext

theorem getElem?_header {k : Nat} (hk : k < (wrapperHeader id).length) :
    doc.text[k]? = (wrapperHeader id)[k]? := by
  rw [htext, List.getElem?_append_left hk]

theorem getElem?_parameters {k : Nat} (hk : k < 32) :
    doc.text[(headerWords id).length + k]? = ('(' :: (listedNames ++ ") \x7b\n".toList))[k]? := by
  have hlength := length_wrapperHeader id
  rw [getElem?_header htext (by omega), wrapperHeader_eq, List.getElem?_append_right (by omega),
    Nat.add_sub_cancel_left]

theorem getElem?_words {k : Nat} (hk : k < (headerWords id).length) :
    doc.text[k]? = (headerWords id)[k]? := by
  have hlength := length_wrapperHeader id
  rw [getElem?_header htext (by omega), wrapperHeader_eq, List.getElem?_append_left hk]

theorem getElem?_footer (k : Nat) :
    doc.text[(wrapperHeader id).length + cell.length + k]? =
      ('\n' :: '}' :: (footerWords ++ commentLabel name))[k]? := by
  rw [htext, wrapperFooter_eq, Nat.add_assoc, List.getElem?_append_right (by omega),
    Nat.add_sub_cancel_left, List.getElem?_append_right (by omega), Nat.add_sub_cancel_left]

theorem getElem?_headerOpen : doc.text[(headerWords id).length]? = some '(' := by
  rw [← Nat.add_zero (headerWords id).length, getElem?_parameters htext (by decide)]
  rfl

theorem getElem?_headerBrace : doc.text[(headerWords id).length + 30]? = some '{' := by
  rw [getElem?_parameters htext (by decide)]
  decide

theorem getElem?_footerBrace :
    doc.text[(wrapperHeader id).length + cell.length + 1]? = some '}' := by
  rw [getElem?_footer htext]
  rfl

theorem header_le_of_isComment (h : IsComment (doc.spelling leaf)) :
    (wrapperHeader id).length ≤ doc.first leaf := by
  by_contra hlt
  have hlt := Nat.not_le.mp hlt
  have hin : ∀ {k c}, (doc.spelling leaf)[k]? = some c →
      doc.first leaf + k < (wrapperHeader id).length → c ∈ wrapperHeader id := by
    intro k c hc hk
    have hget := (Document.getElem?_text_of_spelling hc).1
    rw [getElem?_header htext hk] at hget
    exact List.mem_of_getElem? hget
  have hlength := length_wrapperHeader id
  rcases h with ⟨⟨mark, hmark, rest, hrest⟩, _⟩ | ⟨⟨rest, hrest⟩, _⟩
  · simp only [lineMarks, List.mem_cons, List.not_mem_nil, or_false] at hmark
    rcases hmark with rfl | rfl | rfl
    · exact not_mem_wrapperHeader id (c := '/') (by decide) (hin (k := 0) (by rw [← hrest]; rfl) hlt)
    · exact not_mem_wrapperHeader id (c := '<') (by decide) (hin (k := 0) (by rw [← hrest]; rfl) hlt)
    · have hminus : doc.text[doc.first leaf]? = some '-' :=
        (Document.getElem?_text_of_spelling (k := 0) (by rw [← hrest]; rfl)).1
      by_cases hshort : doc.first leaf + 2 < (wrapperHeader id).length
      · exact not_mem_wrapperHeader id (c := '>') (by decide)
          (hin (k := 2) (by rw [← hrest]; rfl) hshort)
      · -- the last two characters of the header are its brace and a line feed
        have hend : doc.first leaf = (headerWords id).length + 30 ∨
            doc.first leaf = (headerWords id).length + 31 := by omega
        rcases hend with hend | hend
        · rw [hend, getElem?_parameters htext (by decide)] at hminus
          exact absurd hminus (by decide)
        · rw [hend, getElem?_parameters htext (by decide)] at hminus
          exact absurd hminus (by decide)
  · exact not_mem_wrapperHeader id (c := '/') (by decide) (hin (k := 0) (by rw [← hrest]; rfl) hlt)

/-! ### The start of the body -/

variable (hfaithful : doc.Faithful)

include hfaithful

theorem header_le_of_isExtraKind (hleaf : leaf ∈ doc.root.leaves)
    (hextra : SyntaxTree.isExtraKind leaf.kind) : (wrapperHeader id).length ≤ doc.first leaf :=
  header_le_of_isComment htext (hfaithful.comment leaf hleaf hextra)

theorem opened_le (hcut : doc.Cut parameters body opened headed listed) : opened ≤ 1 := by
  have hlength := length_wrapperHeader id
  have hword : doc.text[1]? = some 'a' := by
    rw [htext, wrapperHeader_eq, headerWords_eq]
    rfl
  -- otherwise a leaf beside the function covers the `a` of `async`
  by_contra hlt
  obtain ⟨leaf, hleaf, hbeside, _, hfirst, hpast⟩ :=
    hcut.before 1 'a' (Nat.zero_le 1) (Nat.not_le.mp hlt) hword (by decide)
  have hextra := hbeside.isExtraKind (Document.mem_spelling hword hfirst hpast) (by decide)
  have hbehind := header_le_of_isExtraKind htext hfaithful hleaf hextra
  omega

theorem headed_le (hcut : doc.Cut parameters body opened headed listed) :
    headed ≤ (headerWords id).length := by
  have hlength := length_wrapperHeader id
  have hopened := opened_le htext hfaithful hcut
  have hnonempty : 1 ≤ (headerWords id).length := by
    rw [headerWords_eq]
    exact Nat.succ_pos _
  have hopen := getElem?_headerOpen htext
  by_contra hlt
  obtain ⟨leaf, hleaf, hsort, _, hfirst, hpast⟩ :=
    hcut.words _ '(' (Nat.le_trans hopened hnonempty) (Nat.not_le.mp hlt) hopen (by decide)
  rcases hsort with hextra | hnone
  · have hbehind := header_le_of_isExtraKind htext hfaithful hleaf hextra
    omega
  · exact hnone (Document.mem_spelling hopen hfirst hpast)

theorem first_parameters (hcut : doc.Cut parameters body opened headed listed)
    (hparsed : doc.Parsed parameters) (hk : parameters.kind = "formal_parameters") :
    doc.first parameters = (headerWords id).length := by
  obtain ⟨hlo, hlt⟩ := hcut.parameters_in
  have hopened := hcut.lt
  -- no leaf of the function's words covers the parenthesis, so one of the parameters does
  have hle : doc.first parameters ≤ (headerWords id).length := by
    by_cases hpast : (headerWords id).length < doc.past parameters
    · obtain ⟨leaf, _, hsort, _, hfirst, _⟩ := hcut.ofParameters _ '('
        (headed_le htext hfaithful hcut) hpast (getElem?_headerOpen htext) (by decide)
      exact Nat.le_trans hsort hfirst
    · omega
  have hstart : doc.text[doc.first parameters]? = some '(' :=
    (hparsed.delimited ("formal_parameters", '(', ')') (by decide) hk).1
  by_contra hne
  rw [getElem?_words htext (Nat.lt_of_le_of_ne hle hne)] at hstart
  apply open_not_mem_headerWords id
  apply List.mem_of_getElem? (i := doc.first parameters - 1)
  rw [List.getElem?_tail, Nat.sub_add_cancel (by omega)]
  exact hstart

theorem past_parameters (hcut : doc.Cut parameters body opened headed listed)
    (hparsed : doc.Parsed parameters) (hk : parameters.kind = "formal_parameters") :
    doc.past parameters = (headerWords id).length + 29 := by
  have hfirst := first_parameters htext hfaithful hcut hparsed hk
  -- nothing but the names of the header stands up to the next parenthesis
  have hnames : (doc.text.drop (doc.first parameters + 1)).takeWhile isListed = listedNames := by
    have hall : ∀ c ∈ listedNames, isListed c = true := List.all_eq_true.mp (by decide)
    rw [hfirst, htext, wrapperHeader_eq, List.append_assoc, ← List.drop_drop, List.drop_left,
      List.cons_append, List.drop_one, List.tail_cons, List.append_assoc,
      List.takeWhile_append_of_pos hall]
    exact List.append_nil _
  have hlisted : listedNames.length = 27 := by decide
  have hclose : doc.text[doc.first parameters + 1 + listedNames.length]? = some ')' := by
    rw [hfirst, hlisted, Nat.add_assoc, getElem?_parameters htext (by decide)]
    decide
  have hcloses := hparsed.parameters hk
  rw [Document.ClosesNames, hnames] at hcloses
  rw [hcloses hclose, hfirst, hlisted]

theorem first_body (hcut : doc.Cut parameters body opened headed listed)
    (hparameters : doc.Parsed parameters) (hk : parameters.kind = "formal_parameters")
    (hbody : doc.Parsed body) (hblock : body.kind = "statement_block") :
    doc.first body = (headerWords id).length + 30 := by
  have hlength := length_wrapperHeader id
  have hpast := past_parameters htext hfaithful hcut hparameters hk
  have hbrace := getElem?_headerBrace htext
  have hlisted : listed ≤ (headerWords id).length + 30 := by
    by_contra hlt
    obtain ⟨leaf, hleaf, hextra, _, hfirst, _⟩ :=
      hcut.comments _ '{' (by omega) (Nat.not_le.mp hlt) hbrace (by decide)
    have hbehind := header_le_of_isExtraKind htext hfaithful hleaf hextra
    omega
  obtain ⟨hlo, hlt⟩ := hcut.body_in
  have hle : doc.first body ≤ (headerWords id).length + 30 := by
    by_cases hend : (headerWords id).length + 30 < doc.past body
    · obtain ⟨leaf, _, hsort, _, hfirst, _⟩ := hcut.ofBody _ '{' hlisted hend hbrace (by decide)
      exact Nat.le_trans hsort hfirst
    · omega
  have hafter := hcut.listed_le
  by_contra hne
  -- in front of the brace there is a space
  have hspace : doc.first body = (headerWords id).length + 29 := by omega
  have hstart : doc.text[doc.first body]? = some '{' :=
    (hbody.delimited ("statement_block", '{', '}') (by decide) hblock).1
  rw [hspace, getElem?_parameters htext (by decide)] at hstart
  exact absurd hstart (by decide)

/-! ### The end of the body -/

/-- A block comment that covers a place in the footer is closed behind it, and so in the label. -/
theorem close_infix_label (hleaf : leaf ∈ doc.root.leaves) (h : IsBlockComment (doc.spelling leaf))
    (hpast : (wrapperHeader id).length + cell.length + 1 < doc.past leaf) :
    "*/".toList <:+: commentLabel name := by
  obtain ⟨_, ⟨inner, hinner⟩, _⟩ := h
  have hcov := (hfaithful.tiles.row.mem hleaf)
  have hsize : (doc.spelling leaf).length = doc.past leaf - doc.first leaf := by
    rw [Document.spelling, List.length_drop, List.length_take, Nat.min_eq_left hcov.2.2]
  have hdropped : ((doc.spelling leaf).drop 2).length = inner.length + 2 := by
    rw [← hinner, List.length_append]
    rfl
  rw [List.length_drop] at hdropped
  have hget : ∀ k c, "*/".toList[k]? = some c →
      (doc.spelling leaf)[2 + (inner.length + k)]? = some c := by
    intro k c hc
    rw [← List.getElem?_drop, ← hinner, List.getElem?_append_right (by omega), Nat.add_sub_cancel_left]
    exact hc
  have hstar := (Document.getElem?_text_of_spelling (hget 0 '*' rfl)).1
  have hslash := (Document.getElem?_text_of_spelling (hget 1 '/' rfl)).1
  obtain ⟨k, hk⟩ := Nat.exists_eq_add_of_le (show (wrapperHeader id).length + cell.length ≤
    doc.first leaf + (2 + (inner.length + 0)) by omega)
  have hnext : doc.first leaf + (2 + (inner.length + 1)) =
      (wrapperHeader id).length + cell.length + (k + 1) := by omega
  rw [hk, getElem?_footer htext, ← List.cons_append, ← List.cons_append] at hstar
  rw [hnext, getElem?_footer htext, ← List.cons_append, ← List.cons_append] at hslash
  have hstarless : '*' ∉ '\n' :: '}' :: footerWords := by decide
  have hbehind : ('\n' :: '}' :: footerWords).length ≤ k := by
    by_contra hlt
    rw [List.getElem?_append_left (Nat.not_le.mp hlt)] at hstar
    exact hstarless (List.mem_of_getElem? hstar)
  rw [List.getElem?_append_right hbehind] at hstar
  rw [List.getElem?_append_right (by omega), Nat.sub_add_comm hbehind] at hslash
  exact pair_infix hstar hslash

/-- A leaf beside the body that covers the brace of the footer is a comment that the label closes. -/
theorem close_of_covered (hleaf : leaf ∈ doc.root.leaves) (hbeside : doc.IsBeside leaf)
    (hfirst : doc.first leaf ≤ (wrapperHeader id).length + cell.length + 1)
    (hpast : (wrapperHeader id).length + cell.length + 1 < doc.past leaf) :
    "*/".toList <:+: commentLabel name := by
  have hbrace := getElem?_footerBrace htext
  have hfeed : doc.text[(wrapperHeader id).length + cell.length]? = some '\n' := by
    rw [← Nat.add_zero (_ + _), getElem?_footer htext]
    rfl
  have hextra := hbeside.isExtraKind (Document.mem_spelling hbrace hfirst hpast) (by decide)
  rcases hfaithful.comment leaf hleaf hextra with ⟨⟨mark, hmark, rest, hrest⟩, hline⟩ | hblock
  · -- the comment would go on behind the end of its line
    exfalso
    have hstart : (doc.spelling leaf)[0]? ≠ some '}' := by
      simp only [lineMarks, List.mem_cons, List.not_mem_nil, or_false] at hmark
      rw [← hrest]
      rcases hmark with rfl | rfl | rfl <;> exact fun h => absurd (Option.some.inj h) (by decide)
    have hne : doc.first leaf ≠ (wrapperHeader id).length + cell.length + 1 := by
      intro heq
      apply hstart
      rw [Document.spelling, List.getElem?_drop, List.getElem?_take_of_lt (by omega), Nat.add_zero,
        heq]
      exact hbrace
    have hbreak := hline '\n' (Document.mem_spelling hfeed (by omega) (by omega))
    exact absurd hbreak (by decide)
  · exact close_infix_label htext hfaithful hleaf hblock hpast

/-- The body does not end in front of the brace of the footer, unless the label closes a comment. -/
theorem le_past_body (hcut : doc.Cut parameters body opened headed listed)
    (hclose : ¬ "*/".toList <:+: commentLabel name) :
    (wrapperHeader id).length + cell.length + 2 ≤ doc.past body := by
  by_contra hlt
  have hbrace := getElem?_footerBrace htext
  have hsize := (List.getElem?_eq_some_iff.mp hbrace).1
  obtain ⟨leaf, hleaf, hbeside, _, hfirst, hpast⟩ :=
    hcut.after _ '}' (by omega) hsize hbrace (by decide)
  exact hclose (close_of_covered htext hfaithful hleaf hbeside hfirst hpast)

omit hfaithful in
/-- The body does not end behind the brace of the footer, unless there is a brace in the label. -/
theorem past_body_le (hbody : doc.Parsed body) (hblock : body.kind = "statement_block")
    (hbrace : '}' ∉ commentLabel name) :
    doc.past body ≤ (wrapperHeader id).length + cell.length + 2 := by
  have hend : doc.text[doc.past body - 1]? = some '}' :=
    (hbody.delimited ("statement_block", '{', '}') (by decide) hblock).2
  have hrest : '}' ∉ footerWords ++ commentLabel name := by
    have hfixed : '}' ∉ footerWords := by decide
    rw [List.mem_append, not_or]
    exact ⟨hfixed, hbrace⟩
  by_contra hlt
  obtain ⟨k, hk⟩ := Nat.exists_eq_add_of_le
    (show (wrapperHeader id).length + cell.length + 2 ≤ doc.past body - 1 by omega)
  rw [hk, Nat.add_assoc, Nat.add_comm 2 k, getElem?_footer htext, List.getElem?_cons_succ,
    List.getElem?_cons_succ] at hend
  exact hrest (List.mem_of_getElem? hend)

end Places

/-- The body of a wrapped cell starts with the brace of the header. It ends with the brace of the footer,
if the name of the cell neither closes a comment nor holds a brace: without the first it does not end
earlier, and without the second it does not end later. -/
theorem wrappedBody_block (source : MappedText) (id : Int) (name : Option String)
    (tree body : SyntaxTree)
    (hfaithful : (Document.ofTree (wrapCell source id name).chars tree).Faithful)
    (hbody : (Document.ofTree (wrapCell source id name).chars tree).wrappedBody
      (wrapCell source id name) = .ok body) :
    let doc := Document.ofTree (wrapCell source id name).chars tree
    let size := (wrapperHeader id).length
    doc.first body + 2 = size ∧
      (¬ "*/".toList <:+: commentLabel name → size + source.chars.length + 2 ≤ doc.past body) ∧
      ('}' ∉ commentLabel name → doc.past body ≤ size + source.chars.length + 2) := by
  intro doc size
  have htext : doc.text = wrapperHeader id ++ (source.chars ++ wrapperFooter name) :=
    (Document.text_ofTree _ tree).trans (chars_wrapCell source id name)
  obtain ⟨parameters, opened, headed, listed, hcut, hparameters, hk, hparsed, hblock⟩ :=
    hfaithful.exists_cut hbody
  have hfirst := first_body htext hfaithful hcut hparameters hk hparsed hblock
  have hlength : size = (headerWords id).length + 32 := length_wrapperHeader id
  have hlower := le_past_body htext hfaithful hcut
  have hupper := past_body_le htext hparsed hblock
  exact ⟨by omega, hlower, hupper⟩

/-- The tree of a text that starts with the header of cell 1: the body of the function goes up to `stop`,
and behind its parenthesis there is a comment. -/
def SyntaxTree.ofWrapped (stop comment size : Nat) (statements : List SyntaxTree) : SyntaxTree :=
  .node { kind := "program", start := 0, stop := size }
    [.node { kind := "expression_statement", start := 0, stop := stop + 1 }
      [.node { kind := "parenthesized_expression", start := 0, stop := stop + 1 }
        [.token "(" 0 1,
          .node { kind := "function_expression", start := 1, stop }
            [.token "async" 1 6, .token "function" 7 15, .leaf "identifier" 16 26 "name",
              .node { kind := "formal_parameters", start := 26, stop := 55, field := some "parameters" }
                [.token "(" 26 27, .leaf "identifier" 27 35, .token "," 35 36,
                  .leaf "identifier" 37 45, .token "," 45 46, .leaf "identifier" 47 54,
                  .token ")" 54 55],
              .node { kind := "statement_block", start := 56, stop, field := some "body" }
                (.token "\x7b" 56 57 :: (statements ++ [.token "\x7d" (stop - 1) stop]))],
          .token ")" stop (stop + 1)]],
      .leaf "comment" comment size]

def numberStatements : List SyntaxTree :=
  [.node { kind := "expression_statement", start := 58, stop := 59 } [.leaf "number" 58 59]]

theorem wrappedBody_block_applied :
    let wrapped := wrapCell (MappedText.ofString "1") 1 (some "a")
    let doc := Document.ofTree wrapped.chars (SyntaxTree.ofWrapped 61 62 77 numberStatements)
    doc.Faithful ∧ ∃ body, doc.wrappedBody wrapped = .ok body ∧
      doc.first body + 2 = (wrapperHeader 1).length ∧
      doc.past body = (wrapperHeader 1).length + 1 + 2 := by
  intro wrapped doc
  have hfaithful : doc.Faithful := by decide +kernel
  obtain ⟨hfirst, hlower, hupper⟩ := wrappedBody_block (MappedText.ofString "1") 1 (some "a") _ _
    hfaithful rfl
  exact ⟨hfaithful, _, rfl, hfirst,
    Nat.le_antisymm (hupper (by decide)) (hlower (by decide))⟩

/-- A cell that closes the wrapper and opens a comment, with a name that closes the comment: the body
that is found ends inside of the cell, and both passes go through. -/
theorem wrappedBody_ends_early :
    let wrapped := wrapCell (MappedText.ofString "1 \x7d) /*") 1 (some "*/")
    let tree := SyntaxTree.ofWrapped 61 63 84 numberStatements
    let doc := Document.ofTree wrapped.chars tree
    doc.Faithful ∧ tree.info.hasError = false ∧ (∃ body, doc.wrappedBody wrapped = .ok body ∧
        doc.past body = 61 ∧ (wrapperHeader 1).length + "1 \x7d) /*".length + 2 = 67) ∧
      applyImportPass wrapped tree = .ok wrapped ∧
      (applyScopePass wrapped tree).map MappedText.toString =
        .ok ("(async function __cell_1__(__global, __import, console) \x7b\nreturn (1) \x7d) /*\n\x7d)" ++
          "//# sourceUrl=*/") := by
  intro wrapped tree doc
  exact ⟨by decide +kernel, rfl, ⟨_, rfl, by decide, by decide⟩, by decide,
    by decide⟩

end NotebookCell
