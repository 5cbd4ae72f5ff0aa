import NotebookCell.Proofs.Pass.Runs
import NotebookCell.Proofs.Scope.Rendering

/-!
# The scope pass and its rendering, kind by kind

Which rule the walk has for a kind of node, and which rule the rendering has for it.
-/

namespace NotebookCell

open Planner

variable {doc : Document} {source : MappedText} {body node parent : SyntaxTree} {mode : NameMode}

/-! ### Folds at a node -/

def walked (doc : Document) (body node : SyntaxTree) : List Walked :=
  node.children.map fun child => (child, child.fold (visitScope doc body) node)

theorem map_walked (doc : Document) (body node : SyntaxTree) :
    ((node.children.map fun child => (child, child.fold (visitScope doc body))).map
      fun child => (child.1, child.2 node)) = walked doc body node := by
  rw [List.map_map]
  rfl

theorem renderScope_eq (doc : Document) (source : MappedText) (node : SyntaxTree) :
    renderScope doc source node = renderNode doc source node
      (node.children.map fun child => (child, renderScope doc source child)) :=
  SyntaxTree.fold_eq _ node

/-- The text of a node in which the children are rendered and the rest is copied. -/
def rendered (doc : Document) (source : MappedText) (node : SyntaxTree) (mode : NameMode) :
    MappedText :=
  Piece.splice source (doc.first node) (doc.past node)
    (doc.pieces (fun child => renderScope doc source child false (childMode node mode child))
      (node.children.filter (rendersChild node)))

theorem parts_eq (doc : Document) (shown : SyntaxTree → Bool)
    (text : SyntaxTree → Rendering → MappedText) (render : SyntaxTree → Rendering)
    (children : List SyntaxTree) :
    doc.parts shown text (children.map fun child => (child, render child)) =
      doc.pieces (fun child => text child (render child)) (children.filter shown) := by
  rw [Document.parts, List.filter_map, List.map_map]
  rfl

theorem renderInside_eq (doc : Document) (source : MappedText) (node : SyntaxTree)
    (mode : NameMode) :
    renderInside doc source node
      (node.children.map fun child => (child, renderScope doc source child)) mode =
      rendered doc source node mode := by
  rw [renderInside, parts_eq, rendered]

theorem SyntaxTree.exposes_eq (node : SyntaxTree) :
    node.exposes = (!scopeKinds.contains node.kind &&
      (statementKinds.contains node.kind || node.children.any SyntaxTree.exposes)) := by
  rw [exposes, fold_eq, List.any_map]
  rfl

theorem exposes_child {child : SyntaxTree} (h : node.exposes = false)
    (hkind : scopeKinds.contains node.kind = false) (hc : child ∈ node.children) :
    child.exposes = false := by
  rw [SyntaxTree.exposes_eq, hkind, Bool.not_false, Bool.true_and, Bool.or_eq_false_iff,
    List.any_eq_false] at h
  exact Bool.eq_false_iff.mpr (h.2 child hc)

theorem exposes_of_statementKind (h : statementKinds.contains node.kind = true)
    (hkind : scopeKinds.contains node.kind = false) : node.exposes = true := by
  rw [SyntaxTree.exposes_eq, h, hkind]
  rfl

theorem childMode_off (node child : SyntaxTree) : childMode node .off child = .off := by
  unfold childMode
  simp only [NameMode.into, NameMode.inner, if_true, reduceCtorEq, false_and, false_or, if_false,
    ite_self]

/-! ### The walk and the rendering at each kind of node -/

def ruledKinds : List String :=
  statementKinds ++ ["variable_declarator", "object_pattern", "array_pattern", "assignment_pattern",
    "object_assignment_pattern"] ++ scopeKinds

theorem visit_class (hk : node.kind = "class_declaration") :
    node.fold (visitScope doc body) parent = (do
      walkAll (walked doc body node)
      if parent.sameNode body then planNamed doc node) := by
  rw [SyntaxTree.fold_eq, ← map_walked]
  unfold visitScope
  rw [hk]
  rfl

theorem visit_function (hk : node.kind ∈ functionDeclarationKinds) :
    node.fold (visitScope doc body) parent = planNamed doc node := by
  rw [SyntaxTree.fold_eq]
  unfold visitScope
  rcases List.mem_cons.mp hk with hk | hk
  · rw [hk]
    rfl
  · rw [List.mem_singleton.mp hk]
    rfl

theorem visit_declaration
    (hk : node.kind = "lexical_declaration" ∨ node.kind = "variable_declaration") :
    node.fold (visitScope doc body) parent =
      visitDeclaration doc node (parent.sameNode body) (walked doc body node) := by
  rw [SyntaxTree.fold_eq, ← map_walked]
  unfold visitScope
  rcases hk with hk | hk <;> rw [hk] <;> rfl

theorem visit_declarator (hk : node.kind = "variable_declarator") :
    node.fold (visitScope doc body) parent = visitDeclarator doc node (walked doc body node) := by
  rw [SyntaxTree.fold_eq, ← map_walked]
  unfold visitScope
  rw [hk]
  rfl

theorem visit_objectPattern (hk : node.kind = "object_pattern") :
    node.fold (visitScope doc body) parent = (do
      walkAll (walked doc body node)
      if ← qualifying then node.constructs.forM (planProperty doc)) := by
  rw [SyntaxTree.fold_eq, ← map_walked]
  unfold visitScope
  rw [hk]
  rfl

theorem visit_arrayPattern (hk : node.kind = "array_pattern") :
    node.fold (visitScope doc body) parent = (do
      walkAll (walked doc body node)
      if ← qualifying then node.constructs.forM (planQualified doc)) := by
  rw [SyntaxTree.fold_eq, ← map_walked]
  unfold visitScope
  rw [hk]
  rfl

theorem visit_default
    (hk : node.kind = "assignment_pattern" ∨ node.kind = "object_assignment_pattern") :
    node.fold (visitScope doc body) parent = visitDefault node (walked doc body node) := by
  rw [SyntaxTree.fold_eq, ← map_walked]
  unfold visitScope
  rcases hk with hk | hk <;> rw [hk] <;> rfl

theorem visit_forIn (hk : node.kind = "for_in_statement") :
    node.fold (visitScope doc body) parent = visitForIn doc node (walked doc body node) := by
  rw [SyntaxTree.fold_eq, ← map_walked]
  unfold visitScope
  rw [hk]
  rfl

theorem visit_scope (hk : node.kind ∈ scopeKinds) :
    node.fold (visitScope doc body) parent = pure () := by
  rw [SyntaxTree.fold_eq]
  unfold visitScope
  simp only [scopeKinds, List.mem_cons, List.not_mem_nil, or_false] at hk
  rcases hk with hk | hk | hk | hk | hk | hk | hk <;> rw [hk] <;> rfl

theorem visit_other (hk : node.kind ∉ ruledKinds) :
    node.fold (visitScope doc body) parent = walkAll (walked doc body node) := by
  rw [SyntaxTree.fold_eq, ← map_walked]
  simp only [ruledKinds, statementKinds, List.mem_append, List.mem_cons, List.not_mem_nil, or_false,
    not_or] at hk
  obtain ⟨⟨⟨h1, h2, h3, h4, h5, h6⟩, h7, h8, h9, h10, h11⟩, h12⟩ := hk
  have hscope : scopeKinds.contains node.kind = false := by
    rw [List.contains_eq_mem, decide_eq_false_iff_not]
    exact h12
  unfold visitScope
  simp only [functionDeclarationKinds, List.contains_cons, List.contains_nil, beq_eq_false_iff_ne.mpr,
    h1, h2, h3, h4, h5, h6, h7, h8, h9, h10, h11, hscope, ne_eq, not_false_eq_true, Bool.or_false,
    Bool.false_eq_true, if_false]

section Render

variable {top : Bool}

theorem render_class (hk : node.kind = "class_declaration") :
    renderScope doc source node top mode =
      if top then doc.assigned node (rendered doc source node mode)
      else rendered doc source node mode := by
  rw [renderScope_eq, ← renderInside_eq]
  unfold renderNode
  rw [hk]
  rfl

theorem render_function (hk : node.kind ∈ functionDeclarationKinds) :
    renderScope doc source node top mode = doc.assigned node (copied doc source node) := by
  rw [renderScope_eq]
  unfold renderNode
  rcases List.mem_cons.mp hk with hk | hk
  · rw [hk]
    rfl
  · rw [List.mem_singleton.mp hk]
    rfl

theorem render_declaration
    (hk : node.kind = "lexical_declaration" ∨ node.kind = "variable_declaration") :
    renderScope doc source node top mode =
      if doc.keyword node == "var".toList || top then
        renderMoved doc source node
          (node.children.map fun child => (child, renderScope doc source child))
      else rendered doc source node mode := by
  rw [renderScope_eq, ← renderInside_eq]
  unfold renderNode
  rcases hk with hk | hk <;> rw [hk] <;> rfl

theorem render_loop (hk : node.kind = "for_in_statement")
    (hvar : (node.child? "kind").any (fun kind => doc.spelling kind == "var".toList) = true) :
    renderScope doc source node top mode =
      renderLoop doc source node
        (node.children.map fun child => (child, renderScope doc source child)) := by
  rw [renderScope_eq]
  unfold renderNode
  rw [hk, hvar]
  rfl

theorem render_loop_other (hk : node.kind = "for_in_statement")
    (hvar : (node.child? "kind").any (fun kind => doc.spelling kind == "var".toList) = false) :
    renderScope doc source node top mode = rendered doc source node mode := by
  rw [renderScope_eq, ← renderInside_eq]
  unfold renderNode
  rw [hk, hvar]
  rfl

theorem render_scope (hk : node.kind ∈ scopeKinds) :
    renderScope doc source node top mode = copied doc source node := by
  rw [renderScope_eq]
  unfold renderNode
  simp only [scopeKinds, List.mem_cons, List.not_mem_nil, or_false] at hk
  rcases hk with hk | hk | hk | hk | hk | hk | hk <;> rw [hk] <;> rfl

theorem render_other
    (hk : node.kind ∉ statementKinds) (hscope : node.kind ∉ scopeKinds) :
    renderScope doc source node top mode =
      if node.kind == "identifier" && mode == .bound then
        .ofChars namespaceDot none ++ rendered doc source node mode
      else if node.kind == "shorthand_property_identifier_pattern" && mode == .property then
        rendered doc source node mode ++ .ofChars (':' :: (namespaceDot ++ doc.spelling node)) none
      else rendered doc source node mode := by
  rw [renderScope_eq, ← renderInside_eq]
  simp only [statementKinds, List.mem_cons, List.not_mem_nil, or_false, not_or] at hk
  obtain ⟨h1, h2, h3, h4, h5, h6⟩ := hk
  have hcopied : scopeKinds.contains node.kind = false := by
    rw [List.contains_eq_mem, decide_eq_false_iff_not]
    exact hscope
  unfold renderNode
  simp only [functionDeclarationKinds, List.contains_cons, List.contains_nil, beq_eq_false_iff_ne.mpr,
    h1, h2, h3, h4, h5, h6, hcopied, ne_eq, not_false_eq_true, Bool.or_false, Bool.false_and,
    Bool.false_eq_true, if_false]

end Render

end NotebookCell
