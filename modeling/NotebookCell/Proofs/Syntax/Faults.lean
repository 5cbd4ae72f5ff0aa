import NotebookCell.Proofs.Syntax.Nodes
import NotebookCell.Proofs.Syntax.Places

/-!
# The first fault of a tree

The search for a fault goes by the error flags and passes over whole subtrees. Where every flag says what
is below it, the search finds the first faulty node of the whole tree, and reading a text fails with
that node or not at all. Whatever the flags say, a flagged tree is refused at one of its nodes.
-/

namespace NotebookCell

namespace SyntaxTree

/-- A node is flagged exactly if it or one below it is faulty. -/
def FlagsConsistent (tree : SyntaxTree) : Prop :=
  ∀ node ∈ tree.nodes, node.info.hasError = true ↔ ∃ below ∈ node.nodes, below.isFault = true

theorem FlagsConsistent.child {info : NodeInfo} {children : List SyntaxTree}
    (h : FlagsConsistent (.node info children)) {child : SyntaxTree} (hc : child ∈ children) :
    child.FlagsConsistent :=
  fun node hnode => h node (mem_nodes_of_child hc hnode)

theorem firstFaultIn?_eq_findSome? (trees : List SyntaxTree) :
    firstFaultIn? trees = trees.findSome? firstFault? := by
  induction trees with
  | nil => rfl
  | cons tree trees ih =>
    rw [firstFaultIn?, ih, List.findSome?_cons]
    cases firstFault? tree <;> rfl

theorem firstFault?_node (info : NodeInfo) (children : List SyntaxTree) :
    firstFault? (.node info children) =
      if isFault (.node info children) then some (.node info children)
      else if info.hasError then some ((children.findSome? firstFault?).getD (.node info children))
      else none := by
  rw [firstFault?, firstFaultIn?_eq_findSome?]
  show (if isFault (.node info children) = true then _ else _) = _
  cases info.hasError <;> rfl

theorem mem_nodes_of_firstFault? {tree found : SyntaxTree} (h : tree.firstFault? = some found) :
    found ∈ tree.nodes := by
  induction tree using induction with
  | node info children ih =>
    have hroot := mem_nodes_self (.node info children)
    rw [firstFault?_node] at h
    split at h
    · exact Option.some.inj h ▸ hroot
    · split at h
      · cases hbelow : children.findSome? firstFault? with
        | none =>
          rw [hbelow] at h
          exact Option.some.inj h ▸ hroot
        | some below =>
          rw [hbelow] at h
          obtain ⟨child, hc, hchild⟩ := List.exists_of_findSome?_eq_some hbelow
          obtain rfl : below = found := Option.some.inj h
          exact mem_nodes_of_child hc (ih child hc hchild)
      · cases h

theorem exists_firstFault? {tree : SyntaxTree} (h : tree.info.hasError = true) :
    ∃ found ∈ tree.nodes, tree.firstFault? = some found := by
  obtain ⟨found, hfound⟩ : ∃ found, tree.firstFault? = some found := by
    cases tree with
    | node info children =>
      change info.hasError = true at h
      rw [firstFault?_node, h]
      split <;> exact ⟨_, rfl⟩
  exact ⟨found, mem_nodes_of_firstFault? hfound, hfound⟩

/-- Where the flags can be trusted, going by them finds what going through all nodes finds. -/
theorem firstFault?_eq_find? {tree : SyntaxTree} (h : tree.FlagsConsistent) :
    tree.firstFault? = tree.nodes.find? isFault := by
  induction tree using induction with
  | node info children ih =>
    have hbelow : children.findSome? firstFault? = (children.flatMap nodes).find? isFault := by
      rw [List.find?_flatMap, ← List.head?_filterMap, ← List.head?_filterMap,
        List.filterMap_congr fun child hc => ih child hc (h.child hc)]
    have hflag := h _ (mem_nodes_self (.node info children))
    change info.hasError = true ↔ _ at hflag
    rw [nodes_node] at hflag
    rw [firstFault?_node, hbelow, nodes_node]
    by_cases hroot : isFault (.node info children) = true
    · rw [if_pos hroot, List.find?_cons_of_pos hroot]
    · rw [if_neg hroot, List.find?_cons_of_neg hroot]
      cases hfound : (children.flatMap nodes).find? isFault with
      | some fault =>
        have hfault : ∃ below ∈ .node info children :: children.flatMap nodes, below.isFault = true :=
          ⟨fault, List.mem_cons_of_mem _ (List.mem_of_find?_eq_some hfound), List.find?_some hfound⟩
        rw [if_pos (hflag.mpr hfault)]
        rfl
      | none =>
        have hclear : ¬info.hasError = true := by
          intro hset
          obtain ⟨below, hmem, hfault⟩ := hflag.mp hset
          rcases List.mem_cons.mp hmem with rfl | hmem
          · exact hroot hfault
          · exact List.find?_eq_none.mp hfound below hmem hfault
        rw [if_neg hclear]

end SyntaxTree

/-! ### Reading a text with a faulty tree -/

/-- All offsets of the tree lie in the text. -/
def SyntaxTree.InText (tree : SyntaxTree) (text : List Char) : Prop :=
  ∀ node ∈ tree.nodes, node.info.start ≤ byteLength text ∧ node.info.stop ≤ byteLength text

/-- What is said of a node with this first line: that it is missing if the parser supplied it, and that
its first line is unexpected if not. -/
def SyntaxTree.report (node : SyntaxTree) (line : List Char) : String :=
  if node.info.missing then "Missing " ++ Text.quoted node.kind.toList
  else if line = [] then "Unexpected end of input"
  else "Unexpected " ++ Text.quoted line

/-- The fault is placed at the first character of the node, and the error that is raised is worded for it,
unless the line at that place is not in its file. -/
def Document.Reports (doc : Document) (source : MappedText) (node : SyntaxTree) (fault : SyntaxFault) :
    Prop :=
  ∃ offset stop line lines, doc.offsets[node.info.start]? = some offset ∧
    doc.offsets[node.info.stop]? = some stop ∧
    Text.splitLines ((doc.text.take stop).drop offset) = line :: lines ∧
    fault = .at (if node.info.missing then .missing node.kind
      else if line = [] then .unexpectedEnd else .unexpected line) offset source ∧
    fault.kind.message = node.report line ∧
    (fault.isShown = true ↔ ∀ place ∈ fault.place, place.position.lineText?.isSome = true) ∧
    (fault.isShown = true → fault.message = node.report line)

/-- Reading the text with the tree fails, and the fault is the one of the node. -/
def Document.FailsAt (source : MappedText) (root node : SyntaxTree) : Prop :=
  ∃ fault, (Document.ofTree source.chars root).Reports source node fault ∧
    Document.read source root = .error (.fault fault)

theorem SyntaxTree.message_eq_report (node : SyntaxTree) (line : List Char) :
    SyntaxFaultKind.message (if node.info.missing then .missing node.kind
      else if line = [] then .unexpectedEnd else .unexpected line) = node.report line := by
  unfold SyntaxTree.report
  split
  · rfl
  · split <;> rfl

theorem Text.exists_splitLines (text : List Char) :
    ∃ lines, splitLines text = text.takeWhile (· != '\n') :: lines := by
  induction text with
  | nil => exact ⟨[], rfl⟩
  | cons c rest ih =>
    obtain ⟨lines, hlines⟩ := ih
    by_cases hc : c = '\n'
    · subst hc
      exact ⟨_, Text.splitLines_newline rest⟩
    · refine ⟨lines, ?_⟩
      rw [Text.splitLines_cons hc, hlines, List.takeWhile_cons_of_pos (by simpa using hc)]
      rfl

theorem exists_charOffset {text : List Char} {byte : Nat} (h : byte ≤ byteLength text) :
    ∃ offset, (charOffsets text)[byte]? = some offset := by
  have hlength := length_charOffsetsFrom 0 text
  exact ⟨_, List.getElem?_eq_getElem (by rw [charOffsets]; omega)⟩

theorem Document.exists_faultOf {text : List Char} {root : SyntaxTree} (source : MappedText)
    (hrange : root.InText text) {node : SyntaxTree} (hnode : node ∈ root.nodes) :
    ∃ fault, (Document.ofTree text root).Reports source node fault ∧
      (Document.ofTree text root).faultOf source node = .ok fault := by
  obtain ⟨offset, hoffset⟩ := exists_charOffset (hrange node hnode).1
  obtain ⟨stop, hstop⟩ := exists_charOffset (hrange node hnode).2
  obtain ⟨lines, hlines⟩ := Text.exists_splitLines ((text.take stop).drop offset)
  refine ⟨_, ⟨offset, stop, _, lines, hoffset, hstop, hlines, rfl, node.message_eq_report _,
    SyntaxFault.isShown_at_iff _ _ _, ?_⟩, ?_⟩
  · intro hshown
    rw [SyntaxFault.message, if_pos hshown]
    exact node.message_eq_report _
  have hfirst : (Document.ofTree text root).start node = .ok offset := by
    simp only [Document.start, Document.charAt, Document.ofTree, hoffset]
  have hpast : (Document.ofTree text root).stop node = .ok stop := by
    simp only [Document.stop, Document.charAt, Document.ofTree, hstop]
  have htext : (Document.ofTree text root).nodeText node = .ok ((text.take stop).drop offset) := by
    rw [Document.nodeText, hfirst, hpast]
    rfl
  rw [Document.faultOf, hfirst, htext]
  cases node.info.missing with
  | true => rfl
  | false =>
    cases (text.take stop).drop offset with
    | nil => rfl
    | cons c rest =>
      by_cases hc : c = '\n' <;> simp [hc, bind, Except.bind, pure, Except.pure]

theorem Document.failsAt_firstFault {source : MappedText} {root node : SyntaxTree}
    (hflag : root.info.hasError = true) (hrange : root.InText source.chars)
    (hfound : root.firstFault? = some node) : Document.FailsAt source root node := by
  obtain ⟨fault, hreports, hfault⟩ :=
    exists_faultOf source hrange (SyntaxTree.mem_nodes_of_firstFault? hfound)
  refine ⟨fault, hreports, ?_⟩
  rw [Document.read, if_pos hflag, hfound, Option.getD_some, hfault]

theorem Document.faultOf_eq_at {doc : Document} {source : MappedText} {node : SyntaxTree}
    {fault : SyntaxFault} (h : doc.faultOf source node = .ok fault) :
    ∃ (kind : SyntaxFaultKind) (offset : Nat), fault = .at kind offset source := by
  rw [faultOf] at h
  cases hstart : doc.start node with
  | error _ =>
    rw [hstart] at h
    cases h
  | ok offset =>
    cases htext : doc.nodeText node <;> cases hmissing : node.info.missing <;>
      rw [hstart, htext, hmissing] at h <;> cases h <;> exact ⟨_, offset, rfl⟩

theorem Document.isShown_read {source : MappedText} {root : SyntaxTree} {fault : SyntaxFault}
    (hfiles : source.FromFiles) (h : Document.read source root = .error (.fault fault)) :
    fault.isShown = true := by
  simp only [read] at h
  split at h
  · split at h
    · rename_i found hfound
      obtain ⟨kind, offset, rfl⟩ := faultOf_eq_at hfound
      cases h
      exact SyntaxFault.isShown_at kind hfiles offset
    · cases h
  · cases h

theorem Document.accepted_iff_unflagged (source : MappedText) (root : SyntaxTree) :
    Document.read source root = .ok (Document.ofTree source.chars root) ↔ root.info.hasError = false := by
  cases hset : root.info.hasError with
  | false => simp only [read, hset, Bool.false_eq_true, if_false]
  | true =>
    simp only [read, hset, if_true, Bool.true_eq_false, iff_false]
    split
    · rintro ⟨⟩
    · rintro ⟨⟩

theorem Document.refused_iff_flagged {source : MappedText} {root : SyntaxTree}
    (hrange : root.InText source.chars) :
    (∃ fault, Document.read source root = .error (.fault fault)) ↔ root.info.hasError = true := by
  constructor
  · rintro ⟨fault, hread⟩
    rw [← Bool.not_eq_false]
    intro hclear
    rw [(accepted_iff_unflagged source root).mpr hclear] at hread
    cases hread
  · intro hset
    obtain ⟨node, -, hfound⟩ := SyntaxTree.exists_firstFault? hset
    obtain ⟨fault, -, hread⟩ := failsAt_firstFault hset hrange hfound
    exact ⟨fault, hread⟩

/-- A flagged tree is refused at one of its nodes. If the flags are consistent, a tree is refused exactly
if a node of it is faulty, and then at the first faulty one, parents coming before their children. Where
the text is from files, the fault can always be shown, and what is raised is the cell's own error. -/
theorem Document.read_failsAt_firstFault (source : MappedText) (root : SyntaxTree) :
    (root.info.hasError = true → ∃ node ∈ root.nodes, root.firstFault? = some node ∧
      (root.InText source.chars → Document.FailsAt source root node)) ∧
    (root.FlagsConsistent → root.InText source.chars →
      ((∃ fault, Document.read source root = .error (.fault fault)) ↔
        ∃ node ∈ root.nodes, node.isFault = true) ∧
      (source.FromFiles →
        ((∃ fault, Document.read source root = .error (.fault fault) ∧ fault.isShown = true) ↔
          ∃ node ∈ root.nodes, node.isFault = true)) ∧
      (Document.read source root = .ok (Document.ofTree source.chars root) ↔
        ∀ node ∈ root.nodes, node.isFault = false) ∧
      ∀ node, root.nodes.find? SyntaxTree.isFault = some node → Document.FailsAt source root node) ∧
    (source.FromFiles → ∀ fault, Document.read source root = .error (.fault fault) →
      fault.isShown = true) := by
  refine ⟨?_, ?_, fun hfiles fault => isShown_read hfiles⟩
  · intro hset
    obtain ⟨node, hnode, hfound⟩ := SyntaxTree.exists_firstFault? hset
    exact ⟨node, hnode, hfound, fun hrange => failsAt_firstFault hset hrange hfound⟩
  · intro hconsistent hrange
    have hflag := hconsistent root (SyntaxTree.mem_nodes_self root)
    have hrefused := (refused_iff_flagged hrange).trans hflag
    refine ⟨hrefused, fun hfiles => ?_, ?_, ?_⟩
    · rw [← hrefused]
      constructor
      · rintro ⟨fault, hread, -⟩
        exact ⟨fault, hread⟩
      · rintro ⟨fault, hread⟩
        exact ⟨fault, hread, isShown_read hfiles hread⟩
    · rw [accepted_iff_unflagged, Bool.eq_false_iff, ne_eq, hflag]
      simp only [not_exists, not_and, Bool.not_eq_true]
    · intro first hfirst
      have hset := hflag.mpr ⟨first, List.mem_of_find?_eq_some hfirst, List.find?_some hfirst⟩
      exact failsAt_firstFault hset hrange
        ((SyntaxTree.firstFault?_eq_find? hconsistent).trans hfirst)

/-- An argument list that is not closed, on two lines. -/
def unclosedFile : SourceFile := { id := 0, name := none, text := "f(\n1" }

/-- What a parser could not use of the list, with an error inside of it. -/
def unusable : SyntaxTree :=
  .node { kind := "ERROR", start := 1, stop := 4, hasError := true }
    [.token "(" 1 2, .node { kind := "ERROR", start := 3, stop := 4, hasError := true } []]

/-- The faults of this tree are an error, one inside of it, and a supplied token behind both. -/
def unclosedTree : SyntaxTree :=
  .node { kind := "program", start := 0, stop := 4, hasError := true }
    [.node { kind := "expression_statement", start := 0, stop := 4, hasError := true }
      [.leaf "identifier" 0 1, unusable,
        .node { kind := ")", start := 4, stop := 4, named := false, missing := true, hasError := true } []]]

theorem Document.read_failsAt_firstFault_applied :
    unclosedTree.FlagsConsistent ∧ unclosedTree.InText unclosedFile.mapped.chars ∧
      unclosedFile.mapped.FromFiles ∧
      unclosedTree.nodes.find? SyntaxTree.isFault = some unusable ∧
      Document.FailsAt unclosedFile.mapped unclosedTree unusable ∧
      (∃ fault, Document.read unclosedFile.mapped unclosedTree = .error (.fault fault) ∧
        fault.place = some ⟨⟨unclosedFile, 0, 1⟩, some "f("⟩ ∧ fault.isShown = true ∧
        fault.message = "Unexpected \'(\'") ∧
      ∃ node ∈ unclosedTree.nodes, unclosedTree.firstFault? = some node := by
  have hconsistent : unclosedTree.FlagsConsistent := by
    unfold SyntaxTree.FlagsConsistent
    decide +kernel
  have hrange : unclosedTree.InText unclosedFile.mapped.chars := by
    unfold SyntaxTree.InText
    decide +kernel
  have hfiles : unclosedFile.mapped.FromFiles := by
    unfold MappedText.FromFiles
    decide +kernel
  have hfirst : unclosedTree.nodes.find? SyntaxTree.isFault = some unusable := rfl
  have hread : Document.read unclosedFile.mapped unclosedTree =
      .error (.fault ⟨.unexpected ['('], some ⟨⟨unclosedFile, 0, 1⟩, some "f("⟩⟩) := rfl
  obtain ⟨hflagged, hfaulty, hshown⟩ := read_failsAt_firstFault unclosedFile.mapped unclosedTree
  obtain ⟨node, hnode, hfound, -⟩ := hflagged rfl
  exact ⟨hconsistent, hrange, hfiles, hfirst, (hfaulty hconsistent hrange).2.2.2 unusable hfirst,
    ⟨_, hread, rfl, hshown hfiles _ hread, by decide +kernel⟩, node, hnode, hfound⟩

end NotebookCell
