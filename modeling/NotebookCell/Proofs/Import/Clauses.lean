import NotebookCell.Proofs.Import.Walk

/-!
# Clauses of an import

The walk into a clause plans the edits of its bindings, those of the default bindings first.
-/

namespace NotebookCell

open Planner

variable {doc : Document} {node item binding : SyntaxTree}

def clauseBindings (clause : SyntaxTree) : List SyntaxTree :=
  clause.constructs.flatMap bindingsOfClauseItem

def clauseEdits (doc : Document) (clause : SyntaxTree) : List Edit :=
  (clauseBindings clause).flatMap (defaultEdits doc) ++
    (clauseBindings clause).flatMap (bindingEdits doc)

def allBindingEdits (doc : Document) (binding : SyntaxTree) : List Edit :=
  defaultEdits doc binding ++ bindingEdits doc binding

theorem bindingsOfClauseItem_list (hk : item.kind = "named_imports") :
    bindingsOfClauseItem item =
      item.constructs.filter fun child => child.kind == "import_specifier" := by
  rw [bindingsOfClauseItem, hk]
  rfl

theorem bindingsOfClauseItem_single (hk : item.kind ≠ "named_imports") :
    bindingsOfClauseItem item = [item] := by
  rw [bindingsOfClauseItem, if_neg (by rw [beq_iff_eq]; exact hk)]

structure IsClause (doc : Document) (node : SyntaxTree) : Prop where
  kind : node.kind = "import_clause"
  covers : doc.Covers node
  shaped : ∀ part ∈ node.nodes, doc.ImportShaped part
  closed : node.imports = []

namespace IsClause

variable (h : IsClause doc node)

include h

theorem shaped_self : doc.ImportShaped node := h.shaped node (SyntaxTree.mem_nodes_self node)

theorem shaped_item (hi : item ∈ node.constructs) : ∀ part ∈ item.nodes, doc.ImportShaped part :=
  fun part hp => h.shaped part
    (SyntaxTree.mem_nodes_of_child (SyntaxTree.mem_children_of_mem_constructs hi) hp)

theorem covers_item (hi : item ∈ node.constructs) : doc.Covers item :=
  (h.shaped_self.ordered.mem (SyntaxTree.mem_children_of_mem_constructs hi)).1

theorem kind_item (hi : item ∈ node.constructs) :
    item.kind = "identifier" ∨ item.kind = "namespace_import" ∨ item.kind = "named_imports" := by
  have hk := h.shaped_self.clause h.kind item hi
  simp only [List.mem_cons, List.not_mem_nil, or_false] at hk
  exact hk

theorem closed_item (hi : item ∈ node.constructs) : item.imports = [] :=
  imports_child h.closed (by rw [h.kind]; decide) (by rw [h.kind]; decide) hi

theorem row_item (hi : item ∈ node.constructs) :
    doc.Row (doc.first item) (doc.past item) (bindingsOfClauseItem item) := by
  have hcov := h.covers_item hi
  have hshaped := h.shaped_item hi item (SyntaxTree.mem_nodes_self item)
  by_cases hk : item.kind = "named_imports"
  · rw [bindingsOfClauseItem_list hk]
    exact (hshaped.ordered.filter SyntaxTree.isConstruct).filter _
  · rw [bindingsOfClauseItem_single hk]
    exact ⟨hcov, Nat.le_refl _, Nat.le_refl _⟩

theorem row : doc.Row (doc.first node) (doc.past node) (clauseBindings node) :=
  Document.Row.flatMap (h.shaped_self.ordered.filter SyntaxTree.isConstruct) fun _ hi => h.row_item hi

theorem shaped_binding (hb : binding ∈ clauseBindings node) :
    doc.ImportShaped binding ∧ binding.kind ∈ importedKinds := by
  obtain ⟨item, hi, hb⟩ := List.mem_flatMap.mp hb
  by_cases hk : item.kind = "named_imports"
  · rw [bindingsOfClauseItem_list hk, List.mem_filter, beq_iff_eq] at hb
    have hin := SyntaxTree.mem_children_of_mem_constructs hb.1
    refine ⟨h.shaped_item hi binding
      (SyntaxTree.mem_nodes_of_child hin (SyntaxTree.mem_nodes_self binding)), ?_⟩
    rw [hb.2]
    decide
  · rw [bindingsOfClauseItem_single hk, List.mem_singleton] at hb
    rw [hb]
    refine ⟨h.shaped_item hi item (SyntaxTree.mem_nodes_self item), ?_⟩
    rcases h.kind_item hi with hk' | hk' | hk'
    · rw [hk']
      decide
    · rw [hk']
      decide
    · exact absurd hk' hk

theorem over_bindings : doc.Over (clauseBindings node) (allBindingEdits doc) (clauseEdits doc node) := by
  have hdefault := Document.over_flatMap h.row fun binding hb =>
    defaultEdits_within (h.row.mem hb).1
  have hrest := Document.over_flatMap h.row fun binding hb =>
    bindingEdits_within (h.row.mem hb).1 (h.shaped_binding hb).1 (h.shaped_binding hb).2
  exact hdefault.append hrest

/-! ### The walk into a clause -/

theorem runs_default (flag : Bool) : (planDefaultBindings doc node).Plans flag
    ((clauseBindings node).flatMap (defaultEdits doc)) := by
  have hitems : (clauseBindings node).flatMap (defaultEdits doc) =
      (node.constructs.filter fun child => child.kind == "identifier").flatMap fun child =>
        [.insertBefore (doc.first child) (.plain "_:\x7bdefault:".toList),
          .insertAfter (doc.past child) (.plain ['}'])] := by
    have hothers : ∀ item ∈ node.constructs, (item.kind == "identifier") = false →
        (bindingsOfClauseItem item).flatMap (defaultEdits doc) = [] := by
      intro item hi hno
      rw [List.flatMap_eq_nil_iff]
      intro binding hb
      rw [defaultEdits]
      by_cases hk : item.kind = "named_imports"
      · rw [bindingsOfClauseItem_list hk, List.mem_filter, beq_iff_eq] at hb
        rw [hb.2]
        rfl
      · rw [bindingsOfClauseItem_single hk, List.mem_singleton] at hb
        rw [hb, hno, if_neg Bool.false_ne_true]
    rw [clauseBindings, List.flatMap_assoc, flatMap_eq_of_filter hothers]
    apply List.flatMap_congr
    intro item hi
    have hk := beq_iff_eq.mp (List.mem_filter.mp hi).2
    rw [bindingsOfClauseItem_single (by rw [hk]; decide), List.flatMap_cons, List.flatMap_nil,
      List.append_nil, defaultEdits, hk]
    rfl
  rw [hitems]
  apply runs_forM
  intro child hc
  have hcov := h.covers_item (List.mem_filter.mp hc).1
  exact Plans.seq (runs_before hcov _ flag) (runs_after hcov _ flag)

theorem walk_list (hi : item ∈ node.constructs) (hk : item.kind = "named_imports") (flag : Bool) :
    (item.fold (visitImports doc)).Plans flag
      ((bindingsOfClauseItem item).flatMap (bindingEdits doc)) := by
  have hself := h.shaped_item hi item (SyntaxTree.mem_nodes_self item)
  have hall : ∀ child ∈ item.constructs, (child.fold (visitImports doc)).Plans flag
      (if child.kind == "import_specifier" then bindingEdits doc child else []) := by
    intro child hc
    have hin := SyntaxTree.mem_children_of_mem_constructs hc
    have hshaped : ∀ part ∈ child.nodes, doc.ImportShaped part := fun part hp =>
      h.shaped_item hi part (SyntaxTree.mem_nodes_of_child hin hp)
    by_cases hchild : child.kind = "import_specifier"
    · rw [hchild, beq_self_eq_true, if_pos rfl, walk_named hchild]
      exact runs_planNamedBinding (hself.ordered.mem hin).1
        (hshaped child (SyntaxTree.mem_nodes_self child)) hchild flag
    · have hheld : child.kind ∉ heldKinds := by
        intro hmem
        have hplace := mem_importPlaces hself hc hmem
        rw [hk] at hplace
        simp only [Document.importPlaces, List.mem_cons, List.not_mem_nil, or_false, Prod.mk.injEq,
          String.reduceEq, and_false, and_true, false_or] at hplace
        exact hchild hplace
      have hnone : child.imports = [] :=
        imports_child (h.closed_item hi) (by rw [hk]; decide) (by rw [hk]; decide) hc
      rw [if_neg (by rw [beq_iff_eq]; exact hchild)]
      exact walk_quiet hshaped hnone hheld flag
  have hruns := runs_forM hall
  rw [flatMap_eq_of_filter (p := fun child => child.kind == "import_specifier") fun child _ hno => by
    rw [hno, if_neg Bool.false_ne_true]] at hruns
  rw [walk_other (by rw [hk]; decide), hk, bindingsOfClauseItem_list hk]
  rw [List.flatMap_congr fun child hc => if_pos (List.mem_filter.mp hc).2] at hruns
  exact hruns

theorem walk_item (hi : item ∈ node.constructs) (flag : Bool) :
    (item.fold (visitImports doc)).Plans flag
      ((bindingsOfClauseItem item).flatMap (bindingEdits doc)) := by
  have hself := h.shaped_item hi item (SyntaxTree.mem_nodes_self item)
  rcases h.kind_item hi with hk | hk | hk
  · rw [bindingsOfClauseItem_single (by rw [hk]; decide), List.flatMap_cons, List.flatMap_nil,
      List.append_nil, bindingEdits_default hk]
    exact walk_quiet (h.shaped_item hi) (h.closed_item hi) (by rw [hk]; decide) flag
  · rw [bindingsOfClauseItem_single (by rw [hk]; decide), List.flatMap_cons, List.flatMap_nil,
      List.append_nil, walk_starred hk]
    exact runs_planNamespaceBinding (h.covers_item hi) hself hk flag
  · exact h.walk_list hi hk flag

theorem walk (flag : Bool) : (node.fold (visitImports doc)).Plans flag (clauseEdits doc node) := by
  have hitems := runs_forM fun item hi => h.walk_item hi flag
  rw [← List.flatMap_assoc] at hitems
  rw [walk_clause h.kind]
  exact Plans.seq (h.runs_default flag) hitems

end IsClause

end NotebookCell
