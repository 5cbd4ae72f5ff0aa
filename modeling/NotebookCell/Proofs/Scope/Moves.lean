import NotebookCell.Proofs.Scope.Changes
import NotebookCell.Proofs.Scope.Frames

/-!
# The rendering moves the bound names

By induction over the tree: an expression is left alone, a pattern has its names moved, and a statement
has those of its binding sites moved.
-/

namespace NotebookCell

/-- The node and all nodes in it are as the grammar has them. -/
def Document.PatternFormed (doc : Document) (node : SyntaxTree) : Prop :=
  doc.WellFormed node ∧ ∀ part ∈ node.nodes, part.PatternShaped

instance (doc : Document) (node : SyntaxTree) : Decidable (doc.PatternFormed node) :=
  inferInstanceAs (Decidable (_ ∧ _))

variable {doc : Document} {source : MappedText} {node : SyntaxTree} {mode : NameMode}
  {top : Bool}

/-- Nodes put in their own places change nothing. -/
theorem splice_copied {lo hi : Nat} {items : List SyntaxTree} (h : doc.Row lo hi items)
    (source : MappedText) :
    Piece.splice source lo hi (doc.pieces (copied doc source) items) = source.segment lo hi := by
  induction items generalizing lo with
  | nil => rfl
  | cons item items ih =>
    obtain ⟨hcov, hlo, hrest⟩ := h
    have hlt := hcov.2.2
    have htail := ih hrest
    rw [Document.pieces] at htail
    rw [Document.pieces, List.map_cons, Piece.splice, htail, copied,
      source.segment_append hlo (Nat.le_of_lt hlt),
      source.segment_append (Nat.le_trans hlo (Nat.le_of_lt hlt)) hrest.le]

namespace Document.PatternFormed

theorem shaped (h : doc.PatternFormed node) : doc.Shaped node :=
  h.1.2 node (SyntaxTree.mem_nodes_self node)

theorem patternShaped (h : doc.PatternFormed node) : node.PatternShaped :=
  h.2 node (SyntaxTree.mem_nodes_self node)

theorem lt (h : doc.PatternFormed node) : doc.first node < doc.past node := h.1.1.2.2

theorem child (h : doc.PatternFormed node) {part : SyntaxTree} (hc : part ∈ node.children) :
    doc.PatternFormed part :=
  ⟨⟨(h.shaped.ordered.mem hc).1, fun part hp => h.1.2 part (SyntaxTree.mem_nodes_of_child hc hp)⟩,
    fun part hp => h.2 part (SyntaxTree.mem_nodes_of_child hc hp)⟩

theorem construct (h : doc.PatternFormed node) {part : SyntaxTree} (hc : part ∈ node.constructs) :
    doc.PatternFormed part := h.child (SyntaxTree.mem_children_of_mem_constructs hc)

theorem moves_rendered (h : doc.PatternFormed node) {namesOf : SyntaxTree → List SyntaxTree}
    {changesOf : SyntaxTree → List Piece}
    (hbelow : ∀ child ∈ node.children, rendersChild node child = true →
      doc.Moves source (doc.first child) (doc.past child)
        (renderScope doc source child false (childMode node mode child)) (changesOf child)
        (namesOf child)) :
    doc.Moves source (doc.first node) (doc.past node) (rendered doc source node mode)
      ((node.children.filter (rendersChild node)).flatMap changesOf)
      ((node.children.filter (rendersChild node)).flatMap namesOf) := by
  apply Document.moves_pieces (h.shaped.ordered.filter _)
  intro child hc
  obtain ⟨hmem, hrenders⟩ := List.mem_filter.mp hc
  exact hbelow child hmem hrenders

theorem rendered_eq_copied (h : doc.PatternFormed node)
    (hbelow : ∀ child ∈ node.children, rendersChild node child = true →
      renderScope doc source child false (childMode node mode child) = copied doc source child) :
    rendered doc source node mode = copied doc source node := by
  have hpieces : doc.pieces
      (fun child => renderScope doc source child false (childMode node mode child))
      (node.children.filter (rendersChild node)) =
      doc.pieces (copied doc source) (node.children.filter (rendersChild node)) := by
    apply List.map_congr_left
    intro child hc
    obtain ⟨hmem, hrenders⟩ := List.mem_filter.mp hc
    simp only [hbelow child hmem hrenders]
  rw [rendered, hpieces]
  exact splice_copied (h.shaped.ordered.filter _) source

theorem moves_copied (h : doc.PatternFormed node) :
    doc.Moves source (doc.first node) (doc.past node) (copied doc source node) [] [] :=
  Document.moves_kept doc source (Nat.le_of_lt h.lt)

end Document.PatternFormed

/-! ### Expressions -/

theorem render_plain (hk : node.kind ∉ statementKinds) (hscope : node.kind ∉ scopeKinds)
    (hid : mode = .bound → node.kind ≠ "identifier")
    (hshort : mode = .property → node.kind ≠ "shorthand_property_identifier_pattern") :
    renderScope doc source node top mode = rendered doc source node mode := by
  rw [render_other hk hscope, if_neg, if_neg]
  · rw [Bool.and_eq_true, beq_iff_eq, beq_iff_eq]
    exact fun hboth => hshort hboth.2 hboth.1
  · rw [Bool.and_eq_true, beq_iff_eq, beq_iff_eq]
    exact fun hboth => hid hboth.2 hboth.1

theorem of_exposes_eq_false (h : node.exposes = false) (hscope : node.kind ∉ scopeKinds) :
    node.kind ∉ statementKinds ∧ ∀ child ∈ node.children, child.exposes = false := by
  have hcontains : scopeKinds.contains node.kind = false := by
    rw [List.contains_eq_mem, decide_eq_false_iff_not]
    exact hscope
  refine ⟨fun hk => ?_, fun child hc => exposes_child h hcontains hc⟩
  rw [exposes_of_statementKind (List.contains_iff_mem.mpr hk) hcontains] at h
  cases h

/-- Where names stay, a node that exposes no statement is left alone. -/
theorem render_off_of_exposes (h : doc.PatternFormed node) (hexposes : node.exposes = false) :
    renderScope doc source node top .off = copied doc source node := by
  induction node using SyntaxTree.induction generalizing top with
  | node info children ih =>
    by_cases hscope : (SyntaxTree.node info children).kind ∈ scopeKinds
    · exact render_scope hscope
    · obtain ⟨hk, hchildren⟩ := of_exposes_eq_false hexposes hscope
      rw [render_plain hk hscope (by intro hmode; cases hmode) (by intro hmode; cases hmode)]
      apply h.rendered_eq_copied
      intro child hc _
      rw [childMode_off]
      exact ih child hc (h.child hc) (hchildren child hc)

theorem childMode_on (hdeclarator : node.kind ≠ "variable_declarator")
    (hobject : node.kind ≠ "object_pattern") (harray : node.kind ≠ "array_pattern")
    (child : SyntaxTree) : childMode node .on child = .on ∨ childMode node .on child = .off := by
  simp only [childMode, beq_iff_eq, hdeclarator, hobject, harray, if_false, reduceCtorEq, false_and,
    or_self]
  repeat' split
  all_goals first | exact Or.inl rfl | exact Or.inr rfl

/-- Where names move, an expression without patterns is left alone. -/
theorem render_on_of_expression (h : doc.PatternFormed node) (hexposes : node.exposes = false)
    (hpattern : node.holdsPattern = false) (hdeclarator : node.kind ≠ "variable_declarator") :
    renderScope doc source node false .on = copied doc source node := by
  induction node using SyntaxTree.induction with
  | node info children ih =>
    by_cases hscope : (SyntaxTree.node info children).kind ∈ scopeKinds
    · exact render_scope hscope
    · obtain ⟨hk, hchildren⟩ := of_exposes_eq_false hexposes hscope
      obtain ⟨hobject, harray, hpatterns⟩ := SyntaxTree.of_holdsPattern_eq_false hpattern hscope
      have hbelow := h.patternShaped.declarator (fun he => hk (by rw [he]; decide))
        (fun he => hk (by rw [he]; decide))
      rw [render_plain hk hscope (by intro hmode; cases hmode) (by intro hmode; cases hmode)]
      apply h.rendered_eq_copied
      intro child hc _
      rcases childMode_on hdeclarator hobject harray child with hmode | hmode
      · rw [hmode]
        exact ih child hc (h.child hc) (hchildren child hc) (hpatterns child hc) (hbelow child hc)
      · rw [hmode]
        exact render_off_of_exposes (h.child hc) (hchildren child hc)

/-! ### Patterns -/

theorem rendersChild_structure {part : SyntaxTree} (hk : node.kind = "object_pattern" ∨
    node.kind = "array_pattern" ∨ node.kind = "rest_pattern" ∨ node.kind = "pair_pattern") :
    rendersChild node part = part.isConstruct := by
  rcases hk with hk | hk | hk | hk <;> rw [rendersChild, hk] <;> rfl

theorem rendersChild_default {part : SyntaxTree}
    (hk : node.kind = "assignment_pattern" ∨ node.kind = "object_assignment_pattern") :
    rendersChild node part = (part.isField "left" || part.isField "right") := by
  rcases hk with hk | hk <;> rw [rendersChild, hk] <;> rfl

/-- The node can be a part of a pattern where its names are treated so. -/
def NameMode.Admits : NameMode → SyntaxTree → Prop
  | .bound, node => node.kind ∉ memberKinds
  | .property, node => node.kind ≠ "identifier" ∧ node.kind ≠ "assignment_pattern"
  | _, _ => False

theorem NameMode.Admits.ne_off (h : mode.Admits node) : mode ≠ .off := by
  rintro rfl
  exact h

theorem NameMode.Admits.bound_or_property (h : mode.Admits node) :
    mode = .bound ∨ mode = .property := by
  cases mode with
  | off => exact h.elim
  | on => exact h.elim
  | bound => exact Or.inl rfl
  | property => exact Or.inr rfl

theorem NameMode.Admits.eq_bound (h : mode.Admits node)
    (hk : node.kind = "identifier" ∨ node.kind = "assignment_pattern") : mode = .bound := by
  rcases h.bound_or_property with hmode | rfl
  · exact hmode
  · rcases hk with hk | hk
    · exact absurd hk h.1
    · exact absurd hk h.2

theorem NameMode.Admits.eq_property (h : mode.Admits node) (hk : node.kind ∈ memberKinds) :
    mode = .property := by
  rcases h.bound_or_property with rfl | hmode
  · exact absurd hk h
  · exact hmode

section Kinds

variable (part : SyntaxTree)

theorem childMode_structure (hk : node.kind = "object_pattern" ∨ node.kind = "array_pattern") :
    childMode node mode part =
      mode.into (if node.kind = "object_pattern" then .property else .bound) := by
  rcases hk with hk | hk <;> rw [childMode, hk] <;> rfl

theorem childMode_rest (hk : node.kind = "rest_pattern") :
    childMode node mode part =
      if mode = .bound ∨ mode = .property then .bound else mode.inner := by
  rw [childMode, hk]
  rfl

theorem childMode_pair (hk : node.kind = "pair_pattern") :
    childMode node mode part =
      if mode = .property ∧ part.isField "value" then .bound else mode.inner := by
  rw [childMode, hk]
  rfl

theorem childMode_assignment (hk : node.kind = "assignment_pattern") :
    childMode node mode part =
      if part.isField "left" then if mode = .bound then .bound else mode.inner else .off := by
  rw [childMode, hk]
  rfl

theorem childMode_objectDefault (hk : node.kind = "object_assignment_pattern") :
    childMode node mode part =
      if part.isField "left" then if mode = .property then .property else mode.inner else .off := by
  rw [childMode, hk]
  rfl

end Kinds

/-- Of the parts of a pattern that hold its names, those of an object pattern are its properties, and so
is what a property with a default has on its left. -/
theorem childMode_of_holdsNames (hadmits : mode.Admits node)
    (hk : node.kind ∈ patternKinds) {part : SyntaxTree} (hnames : node.holdsNames part = true) :
    childMode node mode part =
      if node.kind = "object_pattern" ∨ node.kind = "object_assignment_pattern" then .property
      else .bound := by
  simp only [patternKinds, List.mem_cons, List.not_mem_nil, or_false] at hk
  rcases hk with hk | hk | hk | hk | hk | hk
  · rw [childMode_structure part (Or.inl hk), NameMode.into, if_neg hadmits.ne_off, hk]
    rfl
  · rw [childMode_structure part (Or.inr hk), NameMode.into, if_neg hadmits.ne_off, hk]
    rfl
  · rw [childMode_rest part hk, if_pos hadmits.bound_or_property, hk]
    rfl
  · rw [SyntaxTree.holdsNames_pair hk] at hnames
    rw [childMode_pair part hk, if_pos ⟨hadmits.eq_property (by rw [hk]; decide), hnames⟩, hk]
    rfl
  · rw [SyntaxTree.holdsNames_default (Or.inl hk)] at hnames
    rw [childMode_assignment part hk, if_pos hnames, if_pos (hadmits.eq_bound (Or.inr hk)), hk]
    rfl
  · rw [SyntaxTree.holdsNames_default (Or.inr hk)] at hnames
    rw [childMode_objectDefault part hk, if_pos hnames,
      if_pos (hadmits.eq_property (by rw [hk]; decide)), hk]
    rfl

theorem childMode_admits (h : doc.PatternFormed node) (hadmits : mode.Admits node)
    (hk : node.kind ∈ patternKinds) {part : SyntaxTree} (hc : part ∈ node.children)
    (hnames : node.holdsNames part = true) : (childMode node mode part).Admits part := by
  rw [childMode_of_holdsNames hadmits hk hnames]
  by_cases hobject : node.kind = "object_pattern"
  · rw [if_pos (Or.inl hobject)]
    rw [SyntaxTree.holdsNames_structure (Or.inl hobject)] at hnames
    rcases h.patternShaped.property hobject part (List.mem_filter.mpr ⟨hc, hnames⟩) with hpart | hpart
    · rw [NameMode.Admits, hpart]
      decide
    · simp only [memberKinds, List.mem_cons, List.not_mem_nil, or_false] at hpart
      rcases hpart with hpart | hpart | hpart <;> rw [NameMode.Admits, hpart] <;> decide
  by_cases hdefault : node.kind = "object_assignment_pattern"
  · rw [if_pos (Or.inr hdefault)]
    rw [SyntaxTree.holdsNames_default (Or.inr hdefault)] at hnames
    have hfield : part ∈ node.fields "left" := List.mem_filter.mpr ⟨hc, hnames⟩
    have htarget := ((h.shaped.withDefault (Or.inr hdefault)).2.2 part hfield).1
    rw [SyntaxTree.isTarget, Bool.and_eq_true, bne_iff_ne] at htarget
    exact ⟨h.patternShaped.withDefault hdefault part hfield, htarget.1⟩
  rw [if_neg (not_or.mpr ⟨hobject, hdefault⟩)]
  exact h.patternShaped.member hobject hdefault part hc

/-- The other parts of a pattern that are rendered are values, in which names stay, and the keys of
properties. -/
theorem childMode_of_no_names (hadmits : mode.Admits node) (hk : node.kind ∈ patternKinds)
    {part : SyntaxTree} (hrenders : rendersChild node part = true)
    (hnames : node.holdsNames part = false) :
    childMode node mode part = .off ∨
      node.kind = "pair_pattern" ∧ part.isConstruct = true ∧ part.isField "value" = false ∧
        childMode node mode part = .on := by
  simp only [patternKinds, List.mem_cons, List.not_mem_nil, or_false] at hk
  rcases hk with hk | hk | hk | hk | hk | hk
  · rw [rendersChild_structure (Or.inl hk)] at hrenders
    rw [SyntaxTree.holdsNames_structure (Or.inl hk), hrenders] at hnames
    cases hnames
  · rw [rendersChild_structure (Or.inr (Or.inl hk))] at hrenders
    rw [SyntaxTree.holdsNames_structure (Or.inr (Or.inl hk)), hrenders] at hnames
    cases hnames
  · rw [rendersChild_structure (Or.inr (Or.inr (Or.inl hk)))] at hrenders
    rw [SyntaxTree.holdsNames_structure (Or.inr (Or.inr hk)), hrenders] at hnames
    cases hnames
  · rw [rendersChild_structure (Or.inr (Or.inr (Or.inr hk)))] at hrenders
    rw [SyntaxTree.holdsNames_pair hk] at hnames
    refine Or.inr ⟨hk, hrenders, hnames, ?_⟩
    rw [childMode_pair part hk, hnames, if_neg (fun hboth => Bool.false_ne_true hboth.2),
      NameMode.inner, NameMode.into, if_neg hadmits.ne_off]
  · rw [SyntaxTree.holdsNames_default (Or.inl hk)] at hnames
    rw [childMode_assignment part hk, hnames]
    exact Or.inl rfl
  · rw [SyntaxTree.holdsNames_default (Or.inr hk)] at hnames
    rw [childMode_objectDefault part hk, hnames]
    exact Or.inl rfl

theorem rendersChild_of_holdsNames (h : doc.PatternFormed node) (hk : node.kind ∈ patternKinds)
    {part : SyntaxTree} (hc : part ∈ node.children) (hnames : node.holdsNames part = true) :
    rendersChild node part = true := by
  simp only [patternKinds, List.mem_cons, List.not_mem_nil, or_false] at hk
  rcases hk with hk | hk | hk | hk | hk | hk
  · rw [rendersChild_structure (Or.inl hk), ← SyntaxTree.holdsNames_structure (Or.inl hk), hnames]
  · rw [rendersChild_structure (Or.inr (Or.inl hk)),
      ← SyntaxTree.holdsNames_structure (Or.inr (Or.inl hk)), hnames]
  · rw [rendersChild_structure (Or.inr (Or.inr (Or.inl hk))),
      ← SyntaxTree.holdsNames_structure (Or.inr (Or.inr hk)), hnames]
  · rw [SyntaxTree.holdsNames_pair hk] at hnames
    rw [rendersChild_structure (Or.inr (Or.inr (Or.inr hk)))]
    exact (h.shaped.pair hk).2 part (List.mem_filter.mpr ⟨hc, hnames⟩)
  · rw [SyntaxTree.holdsNames_default (Or.inl hk)] at hnames
    rw [rendersChild_default (Or.inl hk), hnames, Bool.true_or]
  · rw [SyntaxTree.holdsNames_default (Or.inr hk)] at hnames
    rw [rendersChild_default (Or.inr hk), hnames, Bool.true_or]

/-- Children that are rendered and hold names make up the names of a node; those without names are left
alone. -/
theorem Document.PatternFormed.moves_filter (h : doc.PatternFormed node) {named : SyntaxTree → Bool}
    (hrenders : ∀ part ∈ node.children, named part = true → rendersChild node part = true)
    (hnamed : ∀ part ∈ node.children, named part = true →
      doc.MovesNames source (doc.first part) (doc.past part)
        (renderScope doc source part false (childMode node mode part)) part.binders)
    (hother : ∀ part ∈ node.children, rendersChild node part = true → named part = false →
      doc.MovesNames source (doc.first part) (doc.past part)
        (renderScope doc source part false (childMode node mode part)) []) :
    doc.MovesNames source (doc.first node) (doc.past node) (rendered doc source node mode)
      ((node.children.filter named).flatMap SyntaxTree.binders) := by
  have hnames : ((node.children.filter (rendersChild node)).flatMap fun part =>
      if named part then part.binders else []) =
      (node.children.filter named).flatMap SyntaxTree.binders := by
    have hdropped : ∀ part ∈ node.children.filter (rendersChild node),
        named part = false → (if named part then part.binders else []) = [] := by
      intro part _ hno
      rw [hno]
      rfl
    have hsame : (node.children.filter fun part => named part && rendersChild node part) =
        node.children.filter named := by
      apply List.filter_congr
      intro part hc
      cases hpart : named part with
      | false => rfl
      | true => rw [hrenders part hc hpart, Bool.and_self]
    rw [flatMap_eq_of_filter hdropped, List.filter_filter, hsame]
    apply List.flatMap_congr
    intro part hc
    exact if_pos (List.mem_filter.mp hc).2
  rw [← hnames, Document.MovesNames, List.map_flatMap]
  apply h.moves_rendered
  intro part hc hshown
  cases hpart : named part with
  | true => exact hnamed part hc hpart
  | false => exact hother part hc hshown hpart

theorem rendered_name (h : doc.PatternFormed node) (hk : node.kind ∈ nameKinds) :
    rendered doc source node mode = copied doc source node := by
  apply h.rendered_eq_copied
  intro part hc hrenders
  have hconstruct : part ∈ node.constructs := by
    simp only [nameKinds, List.mem_cons, List.not_mem_nil, or_false] at hk
    refine List.mem_filter.mpr ⟨hc, ?_⟩
    rcases hk with hk | hk <;> rw [rendersChild, hk] at hrenders <;> exact hrenders
  rw [h.patternShaped.name hk] at hconstruct
  cases hconstruct

theorem render_identifier (h : doc.PatternFormed node) (hk : node.kind = "identifier") :
    renderScope doc source node false .bound =
      .ofChars namespaceDot none ++ copied doc source node := by
  rw [render_other (by rw [hk]; decide) (by rw [hk]; decide), hk, if_pos (by rfl),
    rendered_name h (by rw [hk]; decide)]

theorem render_shorthand (h : doc.PatternFormed node)
    (hk : node.kind = "shorthand_property_identifier_pattern") :
    renderScope doc source node false .property =
      copied doc source node ++ .ofChars (':' :: (namespaceDot ++ doc.spelling node)) none := by
  rw [render_other (by rw [hk]; decide) (by rw [hk]; decide), hk, if_neg (by decide),
    if_pos (by rfl), rendered_name h (by rw [hk]; decide)]

theorem childMode_other (hdeclarator : node.kind ≠ "variable_declarator")
    (hk : node.kind ∉ patternKinds) (part : SyntaxTree) :
    childMode node mode part = mode.inner := by
  simp only [patternKinds, List.mem_cons, List.not_mem_nil, or_false, not_or] at hk
  obtain ⟨hobject, harray, hrest, hpair, hassign, hdefault⟩ := hk
  simp only [childMode, beq_iff_eq, hdeclarator, hobject, harray, hrest, hpair, hassign, hdefault,
    if_false]

theorem kinds_of_scope (h : node.kind ∈ scopeKinds) :
    node.kind ∉ namedKinds ∧ node.kind ∉ nameKinds ∧ node.kind ∉ patternKinds := by
  simp only [scopeKinds, List.mem_cons, List.not_mem_nil, or_false] at h
  rcases h with h | h | h | h | h | h | h <;> rw [h] <;> decide

theorem not_mem_namedKinds (h : node.kind ∉ statementKinds) : node.kind ∉ namedKinds := by
  intro hk
  simp only [namedKinds, functionDeclarationKinds, List.mem_cons, List.not_mem_nil, or_false] at hk
  rcases hk with hk | hk | hk <;> exact h (by rw [hk]; decide)

theorem moves_boundName (h : doc.PatternFormed node) (hadmits : mode.Admits node)
    (hk : node.kind ∈ nameKinds) :
    doc.MovesNames source (doc.first node) (doc.past node) (renderScope doc source node false mode)
      [node] := by
  have hname := Document.moves_name doc source node
  simp only [nameKinds, List.mem_cons, List.not_mem_nil, or_false] at hk
  rcases hk with hk | hk
  · have hmode : mode = .bound := hadmits.eq_bound (Or.inl hk)
    rw [Document.qualification, hk, if_pos (by rfl)] at hname
    rw [hmode, render_identifier h hk]
    exact hname.append h.moves_copied
  · have hmode : mode = .property := hadmits.eq_property (by rw [hk]; decide)
    rw [Document.qualification, hk, if_neg (by decide), if_pos (by rfl)] at hname
    rw [hmode, render_shorthand h hk]
    exact h.moves_copied.append hname

theorem moves_pattern (h : doc.PatternFormed node) (hexposes : node.exposes = false)
    (hkeeps : node.KeepsExpressions) (hadmits : mode.Admits node)
    (hdeclarator : node.kind ≠ "variable_declarator") :
    doc.MovesNames source (doc.first node) (doc.past node) (renderScope doc source node false mode)
      node.binders := by
  induction node using SyntaxTree.induction generalizing mode with
  | node info children ih =>
    by_cases hscope : (SyntaxTree.node info children).kind ∈ scopeKinds
    · obtain ⟨hnamed, hname, hpattern⟩ := kinds_of_scope hscope
      rw [render_scope hscope, SyntaxTree.binders_of_expression hnamed hname hpattern]
      exact h.moves_copied
    obtain ⟨hk, hchildren⟩ := of_exposes_eq_false hexposes hscope
    have hnamed := not_mem_namedKinds hk
    have hdeclarators := h.patternShaped.declarator (fun he => hk (by rw [he]; decide))
      (fun he => hk (by rw [he]; decide))
    by_cases hname : (SyntaxTree.node info children).kind ∈ nameKinds
    · rw [SyntaxTree.binders_of_name (Or.inr hname)]
      exact moves_boundName h hadmits hname
    have hplain : renderScope doc source (.node info children) false mode =
        rendered doc source (.node info children) mode :=
      render_plain hk hscope (fun _ he => hname (by rw [he]; decide))
        (fun _ he => hname (by rw [he]; decide))
    rw [hplain]
    by_cases hpattern : (SyntaxTree.node info children).kind ∈ patternKinds
    · rw [SyntaxTree.binders_of_other hnamed hname]
      apply h.moves_filter (fun part hc hnames => rendersChild_of_holdsNames h hpattern hc hnames)
      · intro part hc hnames
        exact ih part hc (h.child hc) (hchildren part hc) (hkeeps.child hpattern hc hnames)
          (childMode_admits h hadmits hpattern hc hnames) (hdeclarators part hc)
      · -- what holds no names is a default, where the flag is off, or a key, where it stays on
        intro part hc hrenders hnames
        rcases childMode_of_no_names hadmits hpattern hrenders hnames with hoff |
          ⟨hpair, hconstruct, hvalue, hon⟩
        · rw [hoff, render_off_of_exposes (h.child hc) (hchildren part hc)]
          exact (h.child hc).moves_copied
        · have hkey := hkeeps.key hpair (List.mem_filter.mpr ⟨hc, hconstruct⟩) hvalue
          rw [hon, render_on_of_expression (h.child hc) (hchildren part hc) hkey
            (hdeclarators part hc)]
          exact (h.child hc).moves_copied
    · have hexpression : SyntaxTree.holdsPattern (.node info children) = false := by
        apply hkeeps
        rw [SyntaxTree.patternExpressions_of_expression hnamed hname hpattern]
        exact List.mem_singleton_self _
      have hpatterns := (SyntaxTree.of_holdsPattern_eq_false hexpression hscope).2.2
      have hcopied : rendered doc source (.node info children) mode =
          copied doc source (.node info children) := by
        apply h.rendered_eq_copied
        intro part hc _
        rw [childMode_other hdeclarator hpattern, NameMode.inner, NameMode.into,
          if_neg hadmits.ne_off]
        exact render_on_of_expression (h.child hc) (hchildren part hc) (hpatterns part hc)
          (hdeclarators part hc)
      rw [SyntaxTree.binders_of_expression hnamed hname hpattern, hcopied]
      exact h.moves_copied

end NotebookCell
