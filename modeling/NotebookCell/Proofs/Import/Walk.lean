import NotebookCell.Proofs.Import.Bindings

/-!
# The walk for imports

What the walk does at each kind of node, and the edits that it plans below an import.
-/

namespace NotebookCell

open Planner

variable {doc : Document} {source : MappedText} {node : SyntaxTree} {flag : Bool}

/-! ### Kinds of node -/

theorem walkAll_children (doc : Document) (node : SyntaxTree) :
    walkAll (node.children.map fun child => (child, child.fold (visitImports doc))) =
      node.constructs.forM fun child => child.fold (visitImports doc) :=
  walkAll_map node.children _

theorem walk_statement (hk : node.kind = "import_statement") :
    node.fold (visitImports doc) = (do
      planImportStatement doc node
      node.constructs.forM fun child => child.fold (visitImports doc)) := by
  rw [SyntaxTree.fold_eq, ← walkAll_children]
  unfold visitImports
  rw [hk]
  rfl

theorem walk_clause (hk : node.kind = "import_clause") :
    node.fold (visitImports doc) = (do
      planDefaultBindings doc node
      node.constructs.forM fun child => child.fold (visitImports doc)) := by
  rw [SyntaxTree.fold_eq, ← walkAll_children]
  unfold visitImports
  rw [hk]
  rfl

theorem walk_named (hk : node.kind = "import_specifier") :
    node.fold (visitImports doc) = planNamedBinding doc node := by
  rw [SyntaxTree.fold_eq]
  unfold visitImports
  rw [hk]
  rfl

theorem walk_starred (hk : node.kind = "namespace_import") :
    node.fold (visitImports doc) = planNamespaceBinding doc node := by
  rw [SyntaxTree.fold_eq]
  unfold visitImports
  rw [hk]
  rfl

def importKinds : List String :=
  ["import_statement", "import_clause", "import_specifier", "namespace_import"]

theorem walk_other (hk : node.kind ∉ importKinds) :
    node.fold (visitImports doc) =
      if functionDeclarationKinds.contains node.kind || scopeKinds.contains node.kind then pure ()
      else node.constructs.forM fun child => child.fold (visitImports doc) := by
  simp only [importKinds, List.mem_cons, List.not_mem_nil, or_false, not_or] at hk
  obtain ⟨h1, h2, h3, h4⟩ := hk
  rw [SyntaxTree.fold_eq, ← walkAll_children]
  unfold visitImports
  simp only [beq_iff_eq, h1, h2, h3, h4, if_false]

theorem walk_scope (hk : node.kind ∈ scopeKinds) : node.fold (visitImports doc) = pure () := by
  have hother : node.kind ∉ importKinds := by
    intro hin
    simp only [importKinds, List.mem_cons, List.not_mem_nil, or_false] at hin
    rcases hin with hin | hin | hin | hin <;> rw [hin] at hk <;> revert hk <;> decide
  have hquiet : (functionDeclarationKinds.contains node.kind || scopeKinds.contains node.kind) = true := by
    rw [Bool.or_eq_true, List.contains_eq_mem, List.contains_eq_mem, decide_eq_true_eq, decide_eq_true_eq]
    exact Or.inr hk
  rw [walk_other hother, if_pos hquiet]

/-! ### Imports that are reached -/

theorem SyntaxTree.imports_eq (node : SyntaxTree) :
    node.imports =
      if node.kind == "import_statement" then [node]
      else if functionDeclarationKinds.contains node.kind || scopeKinds.contains node.kind then []
      else node.constructs.flatMap imports := by
  rw [imports, fold_eq, List.filter_map, List.flatMap_map]
  rfl

theorem imports_statement (hk : node.kind = "import_statement") : node.imports = [node] := by
  rw [SyntaxTree.imports_eq, hk]
  rfl

theorem imports_child (h : node.imports = []) (hk : node.kind ≠ "import_statement")
    (hfunction : (functionDeclarationKinds.contains node.kind || scopeKinds.contains node.kind) = false)
    {child : SyntaxTree} (hc : child ∈ node.constructs) : child.imports = [] := by
  rw [SyntaxTree.imports_eq, if_neg (by rw [beq_iff_eq]; exact hk), hfunction,
    if_neg Bool.false_ne_true, List.flatMap_eq_nil_iff] at h
  exact h child hc

def heldKinds : List String := Document.importPlaces.map Prod.fst

theorem mem_importPlaces (hshaped : doc.ImportShaped node) {child : SyntaxTree}
    (hc : child ∈ node.constructs) (hheld : child.kind ∈ heldKinds) :
    (child.kind, node.kind) ∈ Document.importPlaces := by
  obtain ⟨place, hplace, hkind⟩ := List.mem_map.mp hheld
  rw [hshaped.held child hc place hplace hkind.symm, ← hkind]
  exact hplace

theorem not_mem_heldKinds (hshaped : doc.ImportShaped node) (hk : node.kind ≠ "import_statement")
    (hheld : node.kind ∉ heldKinds) {child : SyntaxTree} (hc : child ∈ node.constructs) :
    child.kind ∉ heldKinds := by
  intro hchild
  have hplace := mem_importPlaces hshaped hc hchild
  simp only [Document.importPlaces, List.mem_cons, List.not_mem_nil, or_false, Prod.mk.injEq] at hplace
  rcases hplace with ⟨_, hnode⟩ | ⟨_, hnode⟩ | ⟨_, hnode⟩ | ⟨_, hnode⟩
  · exact hk hnode
  · exact hheld (by rw [hnode]; decide)
  · exact hheld (by rw [hnode]; decide)
  · exact hheld (by rw [hnode]; decide)

theorem walk_quiet (hshaped : ∀ part ∈ node.nodes, doc.ImportShaped part) (hnone : node.imports = [])
    (hheld : node.kind ∉ heldKinds) (flag : Bool) :
    (node.fold (visitImports doc)).Plans flag [] := by
  induction node using SyntaxTree.induction with
  | node info children ih =>
    have hstatement : (SyntaxTree.node info children).kind ≠ "import_statement" := by
      intro hk
      rw [imports_statement hk] at hnone
      cases hnone
    have hother : (SyntaxTree.node info children).kind ∉ importKinds := by
      intro hk
      simp only [importKinds, List.mem_cons, List.not_mem_nil, or_false] at hk
      rcases hk with hk | hk | hk | hk
      · exact hstatement hk
      · exact hheld (by rw [hk]; decide)
      · exact hheld (by rw [hk]; decide)
      · exact hheld (by rw [hk]; decide)
    rw [walk_other hother]
    split
    · exact runs_pure () flag
    · rename_i hfunction
      have hnot := Bool.eq_false_iff.mpr hfunction
      have hall : ∀ child ∈ (SyntaxTree.node info children).constructs,
          (child.fold (visitImports doc)).Plans flag [] := by
        intro child hc
        have hin := SyntaxTree.mem_children_of_mem_constructs hc
        exact ih child hin (fun part hp => hshaped part (SyntaxTree.mem_nodes_of_child hin hp))
          (imports_child hnone hstatement hnot hc)
          (not_mem_heldKinds (hshaped _ (SyntaxTree.mem_nodes_self _)) hstatement hheld hc)
      have hruns := runs_forM hall
      rw [List.flatMap_eq_nil_iff.mpr fun _ _ => rfl] at hruns
      exact hruns

end NotebookCell
