import NotebookCell.Proofs.Scope.Moves

/-!
# Statements and their binding sites

What the pass makes of a statement, and of a declaration, a loop or a returned value among them, is the
statement with the names of its binding sites moved.
-/

namespace NotebookCell

variable {doc : Document} {source : MappedText} {node : SyntaxTree} {top : Bool}

/-! ### Sites and changes by kind -/

namespace Document

theorem sites_function (hk : node.kind ∈ functionDeclarationKinds) : doc.sites node top = [node] := by
  rw [sites_eq, if_pos (List.contains_iff_mem.mpr hk)]

theorem changes_function (hk : node.kind ∈ functionDeclarationKinds) :
    doc.changes source node top = doc.assignmentChanges node := by
  rw [changes_eq, if_pos (List.contains_iff_mem.mpr hk)]

theorem sites_class (hk : node.kind = "class_declaration") :
    doc.sites node top = if top then [node] else [] := by
  rw [sites_eq, hk]
  rfl

theorem changes_class (hk : node.kind = "class_declaration") :
    doc.changes source node top = if top then doc.assignmentChanges node else [] := by
  rw [changes_eq, hk]
  rfl

theorem sites_scope (hk : node.kind ∈ scopeKinds) : doc.sites node top = [] := by
  rw [sites_eq]
  simp only [scopeKinds, List.mem_cons, List.not_mem_nil, or_false] at hk
  rcases hk with hk | hk | hk | hk | hk | hk | hk <;> rw [hk] <;> rfl

theorem changes_scope (hk : node.kind ∈ scopeKinds) : doc.changes source node top = [] := by
  rw [changes_eq]
  simp only [scopeKinds, List.mem_cons, List.not_mem_nil, or_false] at hk
  rcases hk with hk | hk | hk | hk | hk | hk | hk <;> rw [hk] <;> rfl

theorem sites_declaration (doc : Document) (top : Bool)
    (hk : node.kind = "lexical_declaration" ∨ node.kind = "variable_declaration") :
    doc.sites node top =
      if doc.keyword node == "var".toList || top then
        node.constructs.flatMap fun declarator => declarator.fields "name"
      else node.constructs.flatMap fun child => doc.sites child false := by
  rw [sites_eq]
  rcases hk with hk | hk <;> rw [hk] <;> rfl

theorem changes_declaration (doc : Document) (source : MappedText) (top : Bool)
    (hk : node.kind = "lexical_declaration" ∨ node.kind = "variable_declaration") :
    doc.changes source node top =
      if doc.keyword node == "var".toList || top then doc.declarationChanges source node
      else node.constructs.flatMap fun child => doc.changes source child false := by
  rw [changes_eq]
  rcases hk with hk | hk <;> rw [hk] <;> rfl

theorem sites_loop (doc : Document) (top : Bool) (hk : node.kind = "for_in_statement") :
    doc.sites node top =
      if doc.declaresByVar node then
        (node.child? "left").toList ++
          (node.constructs.filter fun child => !(node.child? "left").any child.sameNode).flatMap
            fun child => doc.sites child false
      else node.constructs.flatMap fun child => doc.sites child false := by
  rw [sites_eq, hk]
  rfl

theorem changes_loop (doc : Document) (source : MappedText) (top : Bool)
    (hk : node.kind = "for_in_statement") :
    doc.changes source node top =
      if doc.declaresByVar node then
        doc.headChanges node ++
          (node.constructs.filter fun child => !(node.child? "left").any child.sameNode).flatMap
            fun child => doc.changes source child false
      else node.constructs.flatMap fun child => doc.changes source child false := by
  rw [changes_eq, hk]
  rfl

theorem sites_other (hk : node.kind ∉ statementKinds) (hscope : node.kind ∉ scopeKinds) :
    doc.sites node top = node.constructs.flatMap fun child => doc.sites child false := by
  have hcopied : scopeKinds.contains node.kind = false := by
    rw [List.contains_eq_mem, decide_eq_false_iff_not]
    exact hscope
  simp only [statementKinds, List.mem_cons, List.not_mem_nil, or_false, not_or] at hk
  obtain ⟨h1, h2, h3, h4, h5, h6⟩ := hk
  rw [sites_eq]
  simp only [functionDeclarationKinds, List.contains_cons, List.contains_nil, beq_eq_false_iff_ne.mpr,
    h1, h2, h3, h4, h5, h6, hcopied, ne_eq, not_false_eq_true, Bool.or_false, Bool.false_and,
    Bool.false_eq_true, if_false]

theorem changes_other (hk : node.kind ∉ statementKinds) (hscope : node.kind ∉ scopeKinds) :
    doc.changes source node top =
      node.constructs.flatMap fun child => doc.changes source child false := by
  have hcopied : scopeKinds.contains node.kind = false := by
    rw [List.contains_eq_mem, decide_eq_false_iff_not]
    exact hscope
  simp only [statementKinds, List.mem_cons, List.not_mem_nil, or_false, not_or] at hk
  obtain ⟨h1, h2, h3, h4, h5, h6⟩ := hk
  rw [changes_eq]
  simp only [functionDeclarationKinds, List.contains_cons, List.contains_nil, beq_eq_false_iff_ne.mpr,
    h1, h2, h3, h4, h5, h6, hcopied, ne_eq, not_false_eq_true, Bool.or_false, Bool.false_and,
    Bool.false_eq_true, if_false]

theorem nothing_of_exposes (source : MappedText) (hexposes : node.exposes = false) :
    doc.sites node top = [] ∧ doc.changes source node top = [] := by
  induction node using SyntaxTree.induction generalizing top with
  | node info children ih =>
    by_cases hscope : (SyntaxTree.node info children).kind ∈ scopeKinds
    · exact ⟨sites_scope hscope, changes_scope hscope⟩
    · obtain ⟨hk, hchildren⟩ := of_exposes_eq_false hexposes hscope
      have hbelow : ∀ child ∈ (SyntaxTree.node info children).constructs,
          doc.sites child false = [] ∧ doc.changes source child false = [] := by
        intro child hc
        have hmem := SyntaxTree.mem_children_of_mem_constructs hc
        exact ih child hmem (hchildren child hmem)
      rw [sites_other hk hscope, changes_other hk hscope, List.flatMap_eq_nil_iff,
        List.flatMap_eq_nil_iff]
      exact ⟨fun child hc => (hbelow child hc).1, fun child hc => (hbelow child hc).2⟩

end Document

/-! ### Declarations -/

theorem moves_assigned (doc : Document) (hk : node.kind ∈ namedKinds) {text : MappedText}
    (h : doc.Moves source (doc.first node) (doc.past node) text [] []) :
    doc.Moves source (doc.first node) (doc.past node) (doc.assigned node text)
      (doc.assignmentChanges node) [node] := by
  have hname := Document.moves_name doc source node
  have hid : ¬(node.kind == "identifier") = true := by
    simp only [namedKinds, functionDeclarationKinds, List.mem_cons, List.not_mem_nil, or_false] at hk
    rcases hk with hk | hk | hk <;> rw [hk] <;> decide
  have hshort : ¬(node.kind == "shorthand_property_identifier_pattern") = true := by
    simp only [namedKinds, functionDeclarationKinds, List.mem_cons, List.not_mem_nil, or_false] at hk
    rcases hk with hk | hk | hk <;> rw [hk] <;> decide
  have hqualification : doc.qualification node =
      ⟨doc.first node, doc.first node, .ofChars (namespaceDot ++ doc.declaredName node) none⟩ := by
    rw [Document.qualification, if_neg hid, if_neg hshort]
  rw [List.map_singleton, hqualification] at hname
  rw [Document.assignmentChanges, hqualification]
  have hvoid : doc.Moves source (doc.first node) (doc.first node) (.ofString "void (")
      [.inserted (doc.first node) "void ("] [] := Document.moves_inserted doc source _ (by decide)
  have hequals : doc.Moves source (doc.first node) (doc.first node) (.ofString "=")
      [.inserted (doc.first node) "="] [] := Document.moves_inserted doc source _ (by decide)
  have hclose : doc.Moves source (doc.past node) (doc.past node) (.ofString ");")
      [.inserted (doc.past node) ");"] [] := Document.moves_inserted doc source _ (by decide)
  exact (((hvoid.append hname).append hequals).append h).append hclose

theorem moves_declarator (h : doc.PatternFormed node) (hk : node.kind = "variable_declarator")
    (hexposes : node.exposes = false) (hkeeps : ∀ name ∈ node.fields "name", name.KeepsExpressions) :
    doc.Moves source (doc.first node) (doc.past node)
      (renderDeclarator node (renderScope doc source node false .on)) (doc.declaratorChanges node)
      ((node.fields "name").flatMap SyntaxTree.binders) := by
  have hscope : node.kind ∉ scopeKinds := by rw [hk]; decide
  have hchildren := (of_exposes_eq_false hexposes hscope).2
  have hshown : ∀ part, rendersChild node part = (part.isField "name" || part.isField "value") := by
    intro part
    rw [rendersChild, hk]
    rfl
  have hmode : ∀ part, childMode node .on part = if part.isField "name" then .bound else .off := by
    intro part
    rw [childMode, hk]
    rfl
  have hinside : doc.MovesNames source (doc.first node) (doc.past node)
      (rendered doc source node .on) ((node.fields "name").flatMap SyntaxTree.binders) := by
    apply h.moves_filter
    · intro part _ hname
      rw [hshown, hname, Bool.true_or]
    · intro part hc hname
      have hadmits : NameMode.bound.Admits part :=
        h.patternShaped.member (by rw [hk]; decide) (by rw [hk]; decide) part hc
      have hdeclarator := h.patternShaped.declarator (by rw [hk]; decide) (by rw [hk]; decide) part hc
      rw [hmode, hname, if_pos rfl]
      exact moves_pattern (h.child hc) (hchildren part hc)
        (hkeeps part (List.mem_filter.mpr ⟨hc, hname⟩)) hadmits hdeclarator
    · intro part hc _ hname
      rw [hmode, hname, if_neg Bool.false_ne_true,
        render_off_of_exposes (h.child hc) (hchildren part hc)]
      exact (h.child hc).moves_copied
  have hplain : renderScope doc source node false .on = rendered doc source node .on :=
    render_plain (by rw [hk]; decide) hscope (by intro hmode; cases hmode)
      (by intro hmode; cases hmode)
  rw [renderDeclarator, hplain, Document.declaratorChanges]
  cases (node.child? "value").isSome with
  | true => exact hinside.framed "(" ")" (by decide) (by decide)
  | false => exact hinside.framed "(" " = undefined)" (by decide) (by decide)

theorem moves_moved (h : doc.PatternFormed node)
    (hk : node.kind = "lexical_declaration" ∨ node.kind = "variable_declaration")
    (hkeeps : ∀ declarator ∈ node.constructs, ∀ name ∈ declarator.fields "name",
      name.KeepsExpressions) :
    doc.Moves source (doc.first node) (doc.past node)
      (renderMoved doc source node
        (node.children.map fun child => (child, renderScope doc source child)))
      (doc.declarationChanges source node)
      ((node.constructs.flatMap fun declarator => declarator.fields "name").flatMap
        SyntaxTree.binders) := by
  obtain ⟨-, -, hne, hdeclarators⟩ := h.shaped.declaration hk
  obtain ⟨first, others, hconstructs⟩ := List.exists_cons_of_ne_nil hne
  obtain ⟨last, hlast⟩ : ∃ last, node.constructs.getLast? = some last :=
    ⟨_, List.getLast?_eq_some_getLast hne⟩
  have hfirst : node.constructs.head? = some first := by
    rw [hconstructs]
    rfl
  have hrow : doc.Row (doc.first node) (doc.past node) node.constructs := h.shaped.ordered.filter _
  obtain ⟨_, hlo, _⟩ := hrow.mem (List.mem_of_head? hfirst)
  obtain ⟨_, _, hhi⟩ := hrow.mem (List.mem_of_getLast? hlast)
  have hmiddle : doc.Moves source (doc.first first) (doc.past last)
      (Piece.splice source (doc.first first) (doc.past last) (doc.pieces
        (fun child => renderDeclarator child (renderScope doc source child false .on))
        node.constructs))
      (node.constructs.flatMap doc.declaratorChanges)
      (node.constructs.flatMap fun declarator =>
        (declarator.fields "name").flatMap SyntaxTree.binders) := by
    apply Document.moves_pieces (hrow.tighten hfirst hlast)
    intro declarator hc
    obtain ⟨hkind, hexposes⟩ := hdeclarators declarator hc
    exact moves_declarator (h.construct hc) hkind hexposes
      (hkeeps declarator hc)
  have hvoid : doc.Moves source (doc.first node) (doc.first first)
      (.ofChars "void (".toList (source.cell (doc.first node)).firstOrigin)
      [⟨doc.first node, doc.first first,
        .ofChars "void (".toList (source.cell (doc.first node)).firstOrigin⟩] [] :=
    Document.moves_frame doc source hlo (by decide) _
  have hclose : doc.Moves source (doc.past last) (doc.past last) (.ofString ")")
      [.inserted (doc.past last) ")"] [] := Document.moves_inserted doc source _ (by decide)
  have hall := ((hvoid.append hmiddle).append hclose).append (Document.moves_kept doc source hhi)
  rw [List.nil_append, List.append_nil, List.append_nil, List.append_nil, ← List.flatMap_assoc] at hall
  rw [renderMoved, Document.declarationChanges, hfirst, hlast]
  simp only [parts_eq]
  exact hall

/-! ### Loops and other statements -/

/-- A node all of whose constructs are statements or expressions where names stay. -/
theorem moves_inside (h : doc.PatternFormed node) (hvalue : node.kind ∉ valueKinds)
    (hbelow : ∀ child ∈ node.constructs, doc.Moves source (doc.first child) (doc.past child)
      (renderScope doc source child false .off) (doc.changes source child false)
      ((doc.sites child false).flatMap SyntaxTree.binders)) :
    doc.Moves source (doc.first node) (doc.past node) (rendered doc source node .off)
      (node.constructs.flatMap fun child => doc.changes source child false)
      ((node.constructs.flatMap fun child => doc.sites child false).flatMap SyntaxTree.binders) := by
  simp only [valueKinds, List.mem_cons, List.not_mem_nil, or_false, not_or] at hvalue
  have hshown := filter_rendersChild hvalue.1 hvalue.2.1 hvalue.2.2
  have hall : doc.Moves source (doc.first node) (doc.past node) (rendered doc source node .off)
      ((node.children.filter (rendersChild node)).flatMap fun child =>
        doc.changes source child false)
      ((node.children.filter (rendersChild node)).flatMap fun child =>
        (doc.sites child false).flatMap SyntaxTree.binders) := by
    apply h.moves_rendered
    intro child hc hrenders
    rw [childMode_off]
    apply hbelow
    rw [← hshown]
    exact List.mem_filter.mpr ⟨hc, hrenders⟩
  rw [hshown, ← List.flatMap_assoc] at hall
  exact hall

/-- The target of a loop that declares by `var` is the first of its constructs and stands behind the
keyword. -/
theorem exists_loop_head (h : doc.PatternFormed node) (hk : node.kind = "for_in_statement")
    (hvar : doc.declaresByVar node = true) :
    ∃ kind left others, node.child? "kind" = some kind ∧ node.child? "left" = some left ∧
      left.exposes = false ∧ doc.past kind ≤ doc.first left ∧ node.constructs = left :: others ∧
      doc.Row (doc.past left) (doc.past node) others ∧
      (node.constructs.filter fun child => !child.sameNode left) = others := by
  obtain ⟨kind, hkind, hspelled⟩ := (Option.any_eq_true _ _).mp hvar
  obtain ⟨hsome, hleftShaped⟩ := h.shaped.forIn hk kind hkind (beq_iff_eq.mp hspelled)
  obtain ⟨left, hleft⟩ := Option.isSome_iff_exists.mp hsome
  obtain ⟨hconstruct, -, hexposes, hbefore, hleftmost⟩ := hleftShaped left hleft
  have hin : left ∈ node.constructs :=
    List.mem_filter.mpr ⟨SyntaxTree.mem_children_of_child? hleft, hconstruct⟩
  have hrow : doc.Row (doc.first node) (doc.past node) node.constructs := h.shaped.ordered.filter _
  obtain ⟨others, hconstructs, hrowOthers⟩ := Ready.constructs_eq_cons hrow hin hleftmost
  exact ⟨kind, left, others, hkind, hleft, hexposes, hbefore, hconstructs, hrowOthers,
    Ready.filter_not_sameNode hconstructs (hrow.mem hin).1 hrowOthers⟩

theorem moves_loop (h : doc.PatternFormed node) (hk : node.kind = "for_in_statement")
    (hvar : doc.declaresByVar node = true) (hkeeps : ∀ left ∈ node.child? "left", left.KeepsExpressions)
    (hbelow : ∀ child ∈ node.constructs, !(node.child? "left").any child.sameNode →
      doc.Moves source (doc.first child) (doc.past child) (renderScope doc source child false .off)
        (doc.changes source child false) ((doc.sites child false).flatMap SyntaxTree.binders)) :
    doc.Moves source (doc.first node) (doc.past node)
      (renderLoop doc source node
        (node.children.map fun child => (child, renderScope doc source child)))
      (doc.headChanges node ++
        (node.constructs.filter fun child => !(node.child? "left").any child.sameNode).flatMap
          fun child => doc.changes source child false)
      (((node.child? "left").toList ++
        (node.constructs.filter fun child => !(node.child? "left").any child.sameNode).flatMap
          fun child => doc.sites child false).flatMap SyntaxTree.binders) := by
  obtain ⟨kind, left, others, hkind, hleft, hexposes, hbefore, hconstructs, hrowOthers, hothers⟩ :=
    exists_loop_head h hk hvar
  have hmem := SyntaxTree.mem_children_of_child? hleft
  have hin : left ∈ node.constructs := by
    rw [hconstructs]
    exact List.mem_cons_self
  have hrow : doc.Row (doc.first node) (doc.past node) node.constructs := h.shaped.ordered.filter _
  obtain ⟨hcovKind, hloKind, _⟩ := h.shaped.ordered.mem (SyntaxTree.mem_children_of_child? hkind)
  obtain ⟨hcovLeft, _, _⟩ := hrow.mem hin
  have hlt := hcovKind.2.2
  rw [hleft] at hbelow ⊢
  simp only [Option.any_some, Option.toList_some] at hbelow ⊢
  rw [hothers]
  have hitems : ∀ child ∈ node.constructs, doc.Moves source (doc.first child) (doc.past child)
      (renderScope doc source child false (if child.sameNode left then .bound else .off))
      (if child.sameNode left then left.binders.map doc.qualification
        else doc.changes source child false)
      (if child.sameNode left then left.binders
        else (doc.sites child false).flatMap SyntaxTree.binders) := by
    intro child hc
    cases hsame : child.sameNode left with
    | false =>
      rw [if_neg Bool.false_ne_true, if_neg Bool.false_ne_true, if_neg Bool.false_ne_true]
      exact hbelow child hc (by rw [hsame]; rfl)
    | true =>
      have hchild : child = left := by
        by_contra hne
        rw [Document.sameNode_eq_false (hrow.first_ne hc hin hne)] at hsame
        cases hsame
      have hadmits : NameMode.bound.Admits left :=
        h.patternShaped.member (by rw [hk]; decide) (by rw [hk]; decide) left hmem
      have hdeclarator := h.patternShaped.declarator (by rw [hk]; decide) (by rw [hk]; decide) left hmem
      rw [if_pos rfl, if_pos rfl, if_pos rfl, hchild]
      exact moves_pattern (h.child hmem) hexposes (hkeeps left hleft) hadmits hdeclarator
  have hsplit : ∀ {α : Type} (own : List α) (below : SyntaxTree → List α),
      (node.constructs.flatMap fun child => if child.sameNode left then own else below child) =
        own ++ others.flatMap below := by
    intro α own below
    rw [hconstructs, List.flatMap_cons, SyntaxTree.sameNode_self, if_pos rfl]
    congr 1
    apply List.flatMap_congr
    intro child hc
    have hkept : (!child.sameNode left) = true := by
      rw [← hothers] at hc
      exact (List.mem_filter.mp hc).2
    rw [Bool.not_eq_true'] at hkept
    rw [hkept]
    rfl
  have hrowLeft : doc.Row (doc.first left) (doc.past node) node.constructs := by
    rw [hconstructs]
    exact ⟨hcovLeft, Nat.le_refl _, hrowOthers⟩
  -- the keyword goes, and nothing stands for it
  have hcut : doc.Moves source (doc.first kind) (doc.first left) (.ofChars [] none)
      [⟨doc.first kind, doc.first left, []⟩] [] :=
    Document.moves_frame doc source (by omega) (by decide) none
  have hall := ((Document.moves_kept doc source hloKind).append hcut).append
    (Document.moves_pieces hrowLeft hitems)
  have hnothing : MappedText.ofChars [] none = [] := rfl
  rw [hsplit, hsplit, hnothing, List.append_nil, List.nil_append, List.nil_append] at hall
  rw [renderLoop, Document.headChanges, hkind, hleft, List.flatMap_append, List.flatMap_singleton,
    List.flatMap_assoc]
  simp only [parts_eq]
  exact hall

theorem moves_statement (h : doc.PatternFormed node)
    (hkeeps : ∀ site ∈ doc.sites node top, site.KeepsExpressions) :
    doc.Moves source (doc.first node) (doc.past node) (renderScope doc source node top .off)
      (doc.changes source node top) ((doc.sites node top).flatMap SyntaxTree.binders) := by
  induction node using SyntaxTree.induction generalizing top with
  | node info children ih =>
    -- what is left alone but for its constructs
    have hinside : doc.sites (.node info children) top =
        ((SyntaxTree.node info children).constructs.flatMap fun child => doc.sites child false) →
        doc.changes source (.node info children) top =
        ((SyntaxTree.node info children).constructs.flatMap fun child =>
          doc.changes source child false) →
        (SyntaxTree.node info children).kind ∉ valueKinds →
        doc.Moves source (doc.first (.node info children)) (doc.past (.node info children))
          (rendered doc source (.node info children) .off)
          (doc.changes source (.node info children) top)
          ((doc.sites (.node info children) top).flatMap SyntaxTree.binders) := by
      intro hsites hchanges hvalue
      rw [hsites] at hkeeps ⊢
      rw [hchanges]
      apply moves_inside h hvalue
      intro child hc
      have hmem := SyntaxTree.mem_children_of_mem_constructs hc
      exact ih child hmem (h.child hmem) fun site hs => hkeeps site (List.mem_flatMap.mpr ⟨child, hc, hs⟩)
    -- the cases are those in which both the sites and the rendering have a rule of their own
    by_cases hclass : (SyntaxTree.node info children).kind = "class_declaration"
    · have hkept : rendered doc source (.node info children) .off =
          copied doc source (.node info children) := by
        apply h.rendered_eq_copied
        intro child hc _
        rw [childMode_off]
        exact render_off_of_exposes (h.child hc) (h.patternShaped.class_ hclass child hc)
      have hnamed : (SyntaxTree.node info children).kind ∈ namedKinds := by rw [hclass]; decide
      rw [render_class hclass, Document.sites_class hclass, Document.changes_class hclass, hkept]
      cases top with
      | false => exact h.moves_copied
      | true =>
        have hself := SyntaxTree.binders_of_name (Or.inl hnamed)
        rw [if_pos rfl, if_pos rfl, if_pos rfl, List.flatMap_singleton, hself]
        exact moves_assigned doc hnamed h.moves_copied
    by_cases hfunction : (SyntaxTree.node info children).kind ∈ functionDeclarationKinds
    · have hnamed : (SyntaxTree.node info children).kind ∈ namedKinds :=
        List.mem_cons_of_mem _ hfunction
      rw [render_function hfunction, Document.sites_function hfunction,
        Document.changes_function hfunction, List.flatMap_singleton,
        SyntaxTree.binders_of_name (Or.inl hnamed)]
      exact moves_assigned doc hnamed h.moves_copied
    by_cases hdeclaration : (SyntaxTree.node info children).kind = "lexical_declaration" ∨
        (SyntaxTree.node info children).kind = "variable_declaration"
    · have hvalue : (SyntaxTree.node info children).kind ∉ valueKinds := by
        rcases hdeclaration with hk | hk <;> rw [hk] <;> decide
      have hsites := Document.sites_declaration doc top hdeclaration
      have hchanges := Document.changes_declaration doc source top hdeclaration
      rw [render_declaration hdeclaration]
      cases hmoves : doc.keyword (.node info children) == "var".toList || top with
      | false =>
        rw [hmoves] at hsites hchanges
        exact hinside hsites hchanges hvalue
      | true =>
        rw [hmoves, if_pos rfl] at hsites hchanges
        rw [hsites] at hkeeps ⊢
        rw [if_pos rfl, hchanges]
        apply moves_moved h hdeclaration
        intro declarator hd name hn
        exact hkeeps name (List.mem_flatMap.mpr ⟨declarator, hd, hn⟩)
    by_cases hloop : (SyntaxTree.node info children).kind = "for_in_statement"
    · have hvalue : (SyntaxTree.node info children).kind ∉ valueKinds := by rw [hloop]; decide
      have hsites := Document.sites_loop doc top hloop
      have hchanges := Document.changes_loop doc source top hloop
      cases hvar : doc.declaresByVar (.node info children) with
      | false =>
        rw [hvar] at hsites hchanges
        rw [render_loop_other hloop hvar]
        exact hinside hsites hchanges hvalue
      | true =>
        rw [hvar, if_pos rfl] at hsites hchanges
        rw [hsites] at hkeeps ⊢
        rw [render_loop hloop hvar, hchanges]
        apply moves_loop h hloop hvar
        · intro left hleft
          apply hkeeps
          rw [hleft]
          exact List.mem_append_left _ List.mem_cons_self
        · intro child hc hother
          have hmem := SyntaxTree.mem_children_of_mem_constructs hc
          apply ih child hmem (h.child hmem)
          intro site hs
          apply hkeeps
          apply List.mem_append_right
          exact List.mem_flatMap.mpr ⟨child, List.mem_filter.mpr ⟨hc, hother⟩, hs⟩
    by_cases hscope : (SyntaxTree.node info children).kind ∈ scopeKinds
    · rw [render_scope hscope, Document.sites_scope hscope, Document.changes_scope hscope]
      exact h.moves_copied
    -- values expose no statements, so `moves_inside` is not needed for them
    by_cases hvalue : (SyntaxTree.node info children).kind ∈ valueKinds
    · have hexposes := h.patternShaped.value hvalue
      obtain ⟨hsites, hchanges⟩ := Document.nothing_of_exposes source hexposes
      rw [hsites, hchanges, render_off_of_exposes h hexposes]
      exact h.moves_copied
    have hk : (SyntaxTree.node info children).kind ∉ statementKinds := by
      intro hk
      simp only [statementKinds, functionDeclarationKinds, List.mem_cons, List.not_mem_nil,
        or_false, not_or] at hk hfunction hdeclaration
      rcases hk with hk | hk | hk | hk | hk | hk
      · exact hclass hk
      · exact hfunction.1 hk
      · exact hfunction.2 hk
      · exact hdeclaration.1 hk
      · exact hdeclaration.2 hk
      · exact hloop hk
    rw [render_plain hk hscope (by intro hmode; cases hmode) (by intro hmode; cases hmode)]
    exact hinside (Document.sites_other hk hscope) (Document.changes_other hk hscope) hvalue

end NotebookCell
