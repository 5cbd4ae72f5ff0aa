import NotebookCell.Proofs.Edit.Remainders
import NotebookCell.Proofs.Import.Statements
import NotebookCell.Proofs.Pass.Bodies

/-!
# The import pass is its rewriting

The imports of the body are rewritten one by one. What closes an import that ends with its specifier
is put in front of the text behind it, so the induction over the imports is on the text that is left
from a place on.
-/

namespace NotebookCell

open Planner

variable {doc : Document} {source : MappedText} {node specifier : SyntaxTree} {lo : Nat}

/-! ### One import -/

namespace IsStatement

variable (h : IsStatement doc node specifier)

include h

theorem importEdits_eq : importEdits doc node =
    frameEdits doc (doc.first specifier) (importOpening node) (doc.first node) "var \x7b".toList
        (importBindings node) ++
      ([.replace (doc.past specifier) (doc.past node) (.plain (importClosing node))] ++
        innerEdits doc node) := by
  unfold importEdits
  rw [h.specified]
  rfl

theorem importText_eq (source : MappedText) : importText doc source node =
    joinedText doc source (doc.first specifier) (importOpening node) (doc.first node)
        "var \x7b".toList (importBindings node) ++
      source.segment (doc.first specifier) (doc.past specifier) ++
      source.inPlace (doc.past specifier) (doc.past node) (importClosing node) := by
  unfold importText
  rw [h.specified]

theorem frame_within : Edit.AllWithin (doc.first node) (doc.first specifier)
    (frameEdits doc (doc.first specifier) (importOpening node) (doc.first node) "var \x7b".toList
      (importBindings node)) :=
  frameEdits_within h.spread h.covers_binding _ _

theorem first_lt : doc.first node < doc.first specifier := h.spread.lt h.covers_binding

theorem importEdits_from : Edit.AllFrom (doc.first node) (importEdits doc node) := by
  have hlt := h.first_lt
  have hltSpecifier := h.specifier_in.1.2.2
  have hclosing := Edit.allFrom_replace (doc.past specifier) (doc.past node)
    (.plain (importClosing node))
  rw [h.importEdits_eq]
  exact h.frame_within.allFrom.append
    ((hclosing.mono (by omega)).append h.innerEdits_within.allFrom)

theorem importEdits_inRange {size : Nat} (hsize : doc.past node ≤ size) :
    ∀ edit ∈ importEdits doc node, edit.InRange size ∧ ∀ head, edit.onHead head = head := by
  obtain ⟨⟨_, _, hlt⟩, hle⟩ := h.specifier_in
  have hspecifier : doc.first specifier ≤ size := by omega
  intro edit he
  rw [h.importEdits_eq] at he
  rcases List.mem_append.mp he with he | he
  · have hwithin := h.frame_within edit he
    exact ⟨hwithin.inRange hspecifier, hwithin.onHead_eq⟩
  · rcases List.mem_append.mp he with he | he
    · rw [List.mem_singleton.mp he]
      refine ⟨?_, fun _ => rfl⟩
      simp only [Edit.InRange]
      omega
    · have hwithin := h.innerEdits_within edit he
      exact ⟨hwithin.inRange hspecifier, hwithin.onHead_eq⟩

theorem patch_specifier {rest : List Edit} (hrest : Edit.AllFrom (doc.past node) rest) :
    Edit.patch source (importEdits doc node ++ rest) (doc.first node) (doc.past specifier) =
      joinedText doc source (doc.first specifier) (importOpening node) (doc.first node)
          "var \x7b".toList (importBindings node) ++
        source.segment (doc.first specifier) (doc.past specifier) := by
  obtain ⟨⟨_, _, hltSpecifier⟩, hle⟩ := h.specifier_in
  have hlt := h.first_lt
  have hclosing := Edit.allFrom_replace (doc.past specifier) (doc.past node)
    (.plain (importClosing node))
  have hopening : Edit.Agree (doc.first node) (doc.first specifier) (importEdits doc node ++ rest)
      ((frameEdits doc (doc.first specifier) (importOpening node) (doc.first node) "var \x7b".toList
        (importBindings node) ++ ([] ++ innerEdits doc node)) ++ []) := by
    rw [h.importEdits_eq]
    exact ((Edit.agree_refl _ _ _).append
      (((hclosing.mono (Nat.le_of_lt hltSpecifier)).agree_nil).append (Edit.agree_refl _ _ _))).append
        (hrest.mono (by omega)).agree_nil
  have hkept : Edit.Agree (doc.first specifier) (doc.past specifier) (importEdits doc node ++ rest)
      (([] ++ ([] ++ [])) ++ []) := by
    rw [h.importEdits_eq]
    exact ((h.frame_within.agree_nil (Or.inr (Nat.le_refl _))).append (hclosing.agree_nil.append
      (h.innerEdits_within.agree_nil (Or.inr (Nat.le_refl _))))).append (hrest.mono hle).agree_nil
  rw [← Edit.patch_append source _ (Nat.le_of_lt hlt) (Nat.le_of_lt hltSpecifier),
    hopening.patch_eq source, hkept.patch_eq source, List.nil_append, List.append_nil,
    h.patch_opening source]
  exact congrArg (_ ++ ·) (Edit.patch_nil source (Nat.le_of_lt hltSpecifier))

theorem remainder_specifier (hsize : doc.past node ≤ source.length) {rest : List Edit}
    (hrest : Edit.AllFrom (doc.past node) rest)
    (hopen : doc.past specifier = doc.past node → Edit.AllFrom (doc.past node + 1) rest)
    (hend : doc.past node = source.length → rest = []) :
    Edit.remainder source (importEdits doc node ++ rest) (doc.past specifier) =
      source.inPlace (doc.past specifier) (doc.past node) (importClosing node) ++
        Edit.remainder source rest (doc.past node) := by
  obtain ⟨⟨_, _, hltSpecifier⟩, hle⟩ := h.specifier_in
  have hframe := h.frame_within
  have hbehind : Edit.remainder source (importEdits doc node ++ rest) (doc.past specifier) =
      Edit.remainder source
        ([.replace (doc.past specifier) (doc.past node) (.plain (importClosing node))] ++ rest)
        (doc.past specifier) := by
    rw [h.importEdits_eq, List.append_assoc, List.append_assoc]
    exact (Edit.remainder_drop hframe (Nat.le_of_lt hltSpecifier) (a := [])).trans
      (Edit.remainder_drop h.innerEdits_within (Nat.le_of_lt hltSpecifier))
  rw [hbehind]
  by_cases hlast : doc.past specifier = doc.past node
  · have hinsert := Edit.remainder_insert hsize (hopen hlast) hend (.plain (importClosing node))
    rw [hlast, MappedText.inPlace, MappedText.segment_self]
    exact hinsert
  · have hlt : doc.past specifier < doc.past node := by omega
    have hwithin : Edit.AllWithin (doc.past specifier) (doc.past node)
        [.replace (doc.past specifier) (doc.past node) (.plain (importClosing node))] := by
      apply Edit.allWithin_singleton
      simp only [Edit.Within]
      omega
    have hclosed : Edit.Agree (doc.past specifier) (doc.past node)
        ([.replace (doc.past specifier) (doc.past node) (.plain (importClosing node))] ++ rest)
        ([.replace (doc.past specifier) (doc.past node) (.plain (importClosing node))] ++ []) :=
      (Edit.agree_refl _ _ _).append hrest.agree_nil
    have hreplaced := Edit.patch_replace source [] (.plain (importClosing node)) hlt
    rw [Edit.remainder_append (Nat.le_of_lt hlt) hsize, hclosed.patch_eq source,
      source.inPlace_eq hlt]
    exact congr (congrArg _ hreplaced) (Edit.remainder_drop hwithin (Nat.le_refl _) (a := []))

theorem remainder_eq (hsize : doc.past node ≤ source.length) {rest : List Edit}
    (hrest : Edit.AllFrom (doc.past node) rest)
    (hopen : doc.past specifier = doc.past node → Edit.AllFrom (doc.past node + 1) rest)
    (hend : doc.past node = source.length → rest = []) :
    Edit.remainder source (importEdits doc node ++ rest) (doc.first node) =
      importText doc source node ++ Edit.remainder source rest (doc.past node) := by
  obtain ⟨⟨_, _, hltSpecifier⟩, hle⟩ := h.specifier_in
  have hlt := h.first_lt
  rw [Edit.remainder_append (by omega : doc.first node ≤ doc.past specifier) (by omega),
    h.patch_specifier hrest, h.remainder_specifier hsize hrest hopen hend, h.importText_eq]
  simp only [List.append_assoc]

end IsStatement

/-! ### All imports -/

variable {imports : List SyntaxTree} {hi : Nat}

theorem imports_from (hrow : doc.Row lo hi imports)
    (hall : ∀ node ∈ imports, ∃ specifier, IsStatement doc node specifier) :
    Edit.AllFrom lo (imports.flatMap (importEdits doc)) := by
  induction imports generalizing lo with
  | nil => exact Edit.allFrom_nil lo
  | cons node rest ih =>
    obtain ⟨⟨_, _, hlt⟩, hle, hrest⟩ := hrow
    obtain ⟨specifier, h⟩ := hall node List.mem_cons_self
    have htail := ih hrest fun n hn => hall n (List.mem_cons_of_mem node hn)
    rw [List.flatMap_cons]
    exact (h.importEdits_from.mono hle).append (htail.mono (by omega))

/-- What is left of a text behind some place is the text with the imports rewritten. -/
theorem remainder_imports (hrow : doc.Row lo source.length imports)
    (hall : ∀ node ∈ imports, ∃ specifier, IsStatement doc node specifier)
    (hapart : ∀ a ∈ imports, ∀ b ∈ imports, ∀ specifier ∈ a.specifier,
      doc.past specifier = doc.past a → doc.past a ≠ doc.first b) :
    Edit.remainder source (imports.flatMap (importEdits doc)) lo =
      Piece.splice source lo source.length (doc.pieces (importText doc source) imports) := by
  induction imports generalizing lo with
  | nil =>
    rw [List.flatMap_nil, Edit.remainder, Edit.patch_nil source hrow]
    exact List.append_nil _
  | cons node rest ih =>
    have hallRest : ∀ n ∈ rest, ∃ specifier, IsStatement doc n specifier := fun n hn =>
      hall n (List.mem_cons_of_mem node hn)
    have hfrom := imports_from hrow hall
    obtain ⟨⟨_, _, hlt⟩, hle, hrest⟩ := hrow
    obtain ⟨specifier, h⟩ := hall node List.mem_cons_self
    have hsize := hrest.le
    have hopen : doc.past specifier = doc.past node →
        Edit.AllFrom (doc.past node + 1) (rest.flatMap (importEdits doc)) := by
      intro hlast
      cases rest with
      | nil => exact Edit.allFrom_nil _
      | cons next others =>
        have hne := hapart node List.mem_cons_self next (List.mem_cons_of_mem node List.mem_cons_self)
          specifier h.specified hlast
        obtain ⟨hcov, hleNext, hothers⟩ := hrest
        exact imports_from ⟨hcov, by omega, hothers⟩ hallRest
    have hend : doc.past node = source.length → rest.flatMap (importEdits doc) = [] := by
      intro hlast
      cases rest with
      | nil => rfl
      | cons next others =>
        obtain ⟨⟨_, _, hltNext⟩, hleNext, hothers⟩ := hrest
        have hleOthers := hothers.le
        omega
    have hfront : Edit.AllFrom (doc.first node)
        (importEdits doc node ++ rest.flatMap (importEdits doc)) :=
      h.importEdits_from.append ((imports_from hrest hallRest).mono (Nat.le_of_lt hlt))
    rw [List.flatMap_cons, Edit.remainder_append hle (by omega), hfront.patch_eq hle,
      h.remainder_eq hsize (imports_from hrest hallRest) hopen hend,
      ih hrest hallRest fun a ha b hb => hapart a (List.mem_cons_of_mem node ha) b
        (List.mem_cons_of_mem node hb)]
    exact (List.append_assoc _ _ _).symm

/-! ### The imports of a tree -/

variable {tree : SyntaxTree}

theorem mem_nodes_of_mem_imports (h : node ∈ tree.imports) :
    node ∈ tree.nodes ∧ node.kind = "import_statement" := by
  induction tree using SyntaxTree.induction with
  | node info children ih =>
    rw [SyntaxTree.imports_eq] at h
    split at h
    · rename_i hk
      rw [List.mem_singleton.mp h]
      exact ⟨SyntaxTree.mem_nodes_self _, beq_iff_eq.mp hk⟩
    · split at h
      · cases h
      · obtain ⟨child, hc, hn⟩ := List.mem_flatMap.mp h
        have hin := SyntaxTree.mem_children_of_mem_constructs hc
        obtain ⟨hnodes, hk⟩ := ih child hin hn
        exact ⟨SyntaxTree.mem_nodes_of_child hin hnodes, hk⟩

theorem row_imports (hcov : doc.Covers tree)
    (hshaped : ∀ part ∈ tree.nodes, doc.ImportShaped part) :
    doc.Row (doc.first tree) (doc.past tree) tree.imports := by
  induction tree using SyntaxTree.induction with
  | node info children ih =>
    have hself := hshaped _ (SyntaxTree.mem_nodes_self _)
    rw [SyntaxTree.imports_eq]
    split
    · exact ⟨hcov, Nat.le_refl _, Nat.le_refl _⟩
    · split
      · exact Nat.le_of_lt hcov.2.2
      · apply (hself.ordered.filter SyntaxTree.isConstruct).flatMap
        intro child hc
        have hin := SyntaxTree.mem_children_of_mem_constructs hc
        exact ih child hin (hself.ordered.mem hin).1 fun part hp =>
          hshaped part (SyntaxTree.mem_nodes_of_child hin hp)

theorem isStatement_of_mem_imports (hcov : doc.Covers tree)
    (hshaped : ∀ part ∈ tree.nodes, doc.ImportShaped part) (h : node ∈ tree.imports) :
    ∃ specifier, IsStatement doc node specifier := by
  obtain ⟨hnodes, hk⟩ := mem_nodes_of_mem_imports h
  have hall : ∀ part ∈ node.nodes, doc.ImportShaped part := fun part hp =>
    hshaped part (SyntaxTree.nodes_trans hnodes hp)
  have himport := (hshaped node hnodes).statement hk
  obtain ⟨specifier, hspecified⟩ := Option.isSome_iff_exists.mp himport.specified
  exact ⟨specifier, hk, ((row_imports hcov hshaped).mem h).1, hall, hspecified⟩

theorem walk_imports (hcov : doc.Covers tree) (hshaped : ∀ part ∈ tree.nodes, doc.ImportShaped part)
    (hheld : tree.kind ∉ heldKinds) (flag : Bool) :
    (tree.fold (visitImports doc)).Plans flag (tree.imports.flatMap (importEdits doc)) := by
  induction tree using SyntaxTree.induction with
  | node info children ih =>
    have hself := hshaped _ (SyntaxTree.mem_nodes_self _)
    by_cases hk : (SyntaxTree.node info children).kind = "import_statement"
    · have himports := imports_statement hk
      obtain ⟨specifier, h⟩ := isStatement_of_mem_imports hcov hshaped (by
        rw [himports]
        exact List.mem_singleton_self _)
      rw [himports, List.flatMap_cons, List.flatMap_nil, List.append_nil]
      exact h.walk flag
    · have hother : (SyntaxTree.node info children).kind ∉ importKinds := by
        intro hin
        simp only [importKinds, List.mem_cons, List.not_mem_nil, or_false] at hin
        rcases hin with hin | hin | hin | hin
        · exact hk hin
        · exact hheld (by rw [hin]; decide)
        · exact hheld (by rw [hin]; decide)
        · exact hheld (by rw [hin]; decide)
      have himports := SyntaxTree.imports_eq (.node info children)
      rw [if_neg (by rw [beq_iff_eq]; exact hk)] at himports
      rw [walk_other hother, himports]
      split
      · exact runs_pure () flag
      · rw [List.flatMap_assoc]
        apply runs_forM
        intro child hc
        have hin := SyntaxTree.mem_children_of_mem_constructs hc
        exact ih child hin (hself.ordered.mem hin).1
          (fun part hp => hshaped part (SyntaxTree.mem_nodes_of_child hin hp))
          (not_mem_heldKinds hself hk hheld hc)

theorem foldl_onHead {edits : List Edit} (h : ∀ edit ∈ edits, ∀ head, edit.onHead head = head) :
    edits.foldl Edit.onHead [] = [] := by
  induction edits with
  | nil => rfl
  | cons edit edits ih =>
    rw [List.foldl_cons, h edit List.mem_cons_self]
    exact ih fun e he => h e (List.mem_cons_of_mem edit he)

/-- The pass rewrites the imports of the body and leaves all other text alone. -/
theorem applyImportPass_rewrites (source : MappedText) (tree body : SyntaxTree)
    (hsingle : ∀ c ∈ source, c.IsSingle) (hflag : tree.info.hasError = false)
    (hbody : (Document.ofTree source.chars tree).wrappedBody source = .ok body)
    (hwf : (Document.ofTree source.chars tree).WithImports body) :
    applyImportPass source tree = .ok (Piece.splice source 0 source.length
      ((Document.ofTree source.chars tree).pieces
        (importText (Document.ofTree source.chars tree) source) body.imports)) := by
  obtain ⟨hcov, hshaped, hapart⟩ := hwf
  have hend : (Document.ofTree source.chars tree).past body ≤ source.length := by
    rw [← MappedText.length_chars hsingle]
    exact hcov.past_le
  have hrow : (Document.ofTree source.chars tree).Row 0 source.length body.imports := by
    have hbodyRow := (row_imports hcov hshaped).widen (Nat.zero_le _)
    have hwide : (Document.ofTree source.chars tree).Row 0 source.length (body.imports ++ []) :=
      hbodyRow.append hend
    rw [List.append_nil] at hwide
    exact hwide
  have hall := fun node (hn : node ∈ body.imports) => isStatement_of_mem_imports hcov hshaped hn
  have hplans := walk_imports hcov hshaped (by rw [kind_of_wrappedBody hbody]; decide) false
  have hmade : ∀ edit ∈ body.imports.flatMap (importEdits (Document.ofTree source.chars tree)),
      edit.InRange source.length ∧ ∀ head, edit.onHead head = head := by
    intro edit he
    obtain ⟨node, hn, he⟩ := List.mem_flatMap.mp he
    obtain ⟨specifier, h⟩ := hall node hn
    exact h.importEdits_inRange (hrow.mem hn).2.2 edit he
  have hhead := foldl_onHead fun edit he => (hmade edit he).2
  rw [applyImportPass, editBody_of_plans hflag hbody hplans fun edit he => (hmade edit he).1,
    EditBuffer.flush_after, hhead, List.nil_append, ← remainder_imports hrow hall hapart]
  rfl

/-- The statements of `f{import d,{a as b} from'm' import*as n from'q';}`. -/
def twoImports : List SyntaxTree :=
  [.node { kind := "import_statement", start := 2, stop := 27 }
    [.node { kind := "import_clause", start := 9, stop := 19 }
      [.leaf "identifier" 9 10,
        .node { kind := "named_imports", start := 11, stop := 19 }
          [.node { kind := "import_specifier", start := 12, stop := 18 }
            [.leaf "identifier" 12 13 "name", .leaf "identifier" 17 18 "alias"]]],
      .leaf "string" 24 27 "source"],
    .node { kind := "import_statement", start := 28, stop := 48 }
      [.node { kind := "import_clause", start := 34, stop := 39 }
        [.node { kind := "namespace_import", start := 34, stop := 39 } [.leaf "identifier" 38 39]],
        .leaf "string" 44 47 "source"]]

theorem applyImportPass_rewrites_applied :
    let source := MappedText.ofString "f\x7bimport d,\x7ba as b\x7d from'm' import*as n from'q';\x7d"
    let tree := SyntaxTree.ofBlock 49 1 49 twoImports
    let body := SyntaxTree.node
      { kind := "statement_block", start := 1, stop := 49, field := some "body" } twoImports
    let doc := Document.ofTree source.chars tree
    let rewritten := Piece.splice source 0 49 (doc.pieces (importText doc source) body.imports)
    doc.WithImports body ∧ applyImportPass source tree = .ok rewritten ∧
      rewritten.chars = ("f\x7bvar \x7b_:\x7bdefault:d\x7d,_:\x7ba:b\x7d\x7d = \x7b_:await __import('m')\x7d; " ++
        "var \x7b_:n\x7d = \x7b_:await __import('q')\x7d;\x7d").toList := by
  intro source tree body doc rewritten
  have hwf : doc.WithImports body := by decide +kernel
  exact ⟨hwf, applyImportPass_rewrites source tree body (MappedText.isSingle_ofString _) rfl rfl hwf,
    by decide +kernel⟩

end NotebookCell
