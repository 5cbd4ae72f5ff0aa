import NotebookCell.Proofs.Scope.Planned

/-!
# The kinds of node

One lemma for each kind of node at which the walk has a rule, and one for all others: if the children
have their edits, so has the node.
-/

namespace NotebookCell

open Planner

theorem MappedText.ofChars_append (a b : List Char) (origin : Option Position) :
    MappedText.ofChars (a ++ b) origin = .ofChars a origin ++ .ofChars b origin := List.map_append

variable {doc : Document} {source : MappedText} {body node parent : SyntaxTree} {mode : NameMode}
  {own extra : SyntaxTree → NameMode → List Edit}

/-! ### Modes of children -/

theorem filter_rendersChild (hdeclarator : node.kind ≠ "variable_declarator")
    (hassign : node.kind ≠ "assignment_pattern") (hobject : node.kind ≠ "object_assignment_pattern") :
    node.children.filter (rendersChild node) = node.constructs := by
  have hshown : rendersChild node = SyntaxTree.isConstruct := by
    funext child
    simp only [rendersChild, beq_iff_eq, hdeclarator, hassign, hobject, Bool.or_eq_true, or_self,
      if_false]
  rw [hshown, SyntaxTree.constructs]

theorem flag_childMode (hdeclarator : node.kind ≠ "variable_declarator")
    (hassign : node.kind ≠ "assignment_pattern") (hobject : node.kind ≠ "object_assignment_pattern")
    (mode : NameMode) (child : SyntaxTree) : (childMode node mode child).flag = mode.flag := by
  simp only [childMode, beq_iff_eq, hdeclarator, hassign, hobject, if_false]
  cases mode <;> repeat' split
  all_goals first | rfl | simp_all

theorem childMode_allowed (hmode : mode = .off ∨ node.exposes = false)
    (hscope : node.kind ∉ scopeKinds) {child : SyntaxTree} (hc : child ∈ node.children) :
    childMode node mode child = .off ∨ child.exposes = false := by
  rcases hmode with rfl | hexposes
  · exact Or.inl (childMode_off node child)
  · have hcontains : scopeKinds.contains node.kind = false := by
      rw [List.contains_eq_mem, decide_eq_false_iff_not]
      exact hscope
    exact Or.inr (exposes_child hexposes hcontains hc)

theorem NameMode.inner_inner (mode : NameMode) : mode.inner = mode.inner.inner := by
  cases mode <;> rfl

/-! ### A node whose children are known -/

def allOf (node : SyntaxTree) (mode : NameMode) (edits : SyntaxTree → NameMode → List Edit) :
    List Edit :=
  node.constructs.flatMap fun child => edits child (childMode node mode child)

/-- A node of the body, below which everything is planned. -/
structure Ready (doc : Document) (source : MappedText) (body node : SyntaxTree) (mode : NameMode)
    (own extra : SyntaxTree → NameMode → List Edit) : Prop where
  shaped : doc.Shaped node
  covers : doc.Covers node
  deep : node.sameNode body = false
  below : PlannedBelow doc source body node own extra
  allowed : mode = .off ∨ node.exposes = false

namespace Ready

section Constructs

variable (h : Ready doc source body node mode own extra) (hscope : node.kind ∉ scopeKinds)

include h

theorem row : doc.Row (doc.first node) (doc.past node) node.constructs :=
  h.shaped.ordered.filter SyntaxTree.isConstruct

theorem mode_off (hk : node.kind ∈ statementKinds) (hscope : node.kind ∉ scopeKinds) :
    mode = .off := by
  have hstatement : statementKinds.contains node.kind = true := List.contains_iff_mem.mpr hk
  have hcontains : scopeKinds.contains node.kind = false := by
    rw [List.contains_eq_mem, decide_eq_false_iff_not]
    exact hscope
  rcases h.allowed with hoff | hexposes
  · exact hoff
  · rw [exposes_of_statementKind hstatement hcontains] at hexposes
    cases hexposes

include hscope

theorem allowed_constructs :
    ∀ child ∈ node.constructs, childMode node mode child = .off ∨ child.exposes = false :=
  fun _ hc => childMode_allowed h.allowed hscope (SyntaxTree.mem_children_of_mem_constructs hc)

theorem over_constructs : doc.Over node.constructs
    (fun child => own child (childMode node mode child) ++ extra child (childMode node mode child))
    (allOf node mode own ++ allOf node mode extra) :=
  h.below.over_items h.row (fun _ => SyntaxTree.mem_children_of_mem_constructs)
    (h.allowed_constructs hscope)

theorem own_within : doc.InNode node (allOf node mode own) := fun edit he =>
  (h.over_constructs hscope).allWithin h.row edit (List.mem_append_left _ he)

theorem extra_within : doc.InNode node (allOf node mode extra) := fun edit he =>
  (h.over_constructs hscope).allWithin h.row edit (List.mem_append_right _ he)

variable (hdeclarator : node.kind ≠ "variable_declarator")
  (hassign : node.kind ≠ "assignment_pattern") (hobject : node.kind ≠ "object_assignment_pattern")

include hdeclarator hassign hobject

theorem patch_all : Edit.patch source (allOf node mode own ++ allOf node mode extra)
    (doc.first node) (doc.past node) = rendered doc source node mode := by
  rw [rendered, filter_rendersChild hdeclarator hassign hobject]
  exact h.below.patch_eq h.deep h.row (fun _ => SyntaxTree.mem_children_of_mem_constructs)
    (h.allowed_constructs hscope) (h.over_constructs hscope)

theorem walkAll : (NotebookCell.walkAll (walked doc body node)).Plans mode.flag
    (allOf node mode own) :=
  h.below.walkAll (h.allowed_constructs hscope) fun child _ =>
    flag_childMode hdeclarator hassign hobject mode child

end Constructs

theorem extra_nil (h : Ready doc source body node mode own extra) (hscope : node.kind ∉ scopeKinds)
    (hinner : ∀ child ∈ node.constructs, childMode node mode child = mode.inner) :
    allOf node mode extra = [] := by
  apply h.below.extra_nil (fun _ => SyntaxTree.mem_children_of_mem_constructs)
    (h.allowed_constructs hscope)
  intro child hc
  rw [hinner child hc]
  exact NameMode.inner_inner mode

theorem patch_kept (h : Ready doc source body node .off own extra) (hscope : node.kind ∉ scopeKinds)
    (hdeclarator : node.kind ≠ "variable_declarator") (hassign : node.kind ≠ "assignment_pattern")
    (hobject : node.kind ≠ "object_assignment_pattern") :
    Edit.patch source (allOf node .off own) (doc.first node) (doc.past node) =
      rendered doc source node .off := by
  have hpatch := h.patch_all hscope hdeclarator hassign hobject
  rw [h.extra_nil hscope fun child _ => childMode_off node child, List.append_nil] at hpatch
  exact hpatch

/-! ### Functions and classes -/

theorem scope (h : Ready doc source body node mode own extra) (hk : node.kind ∈ scopeKinds) :
    ∃ o e, Planned doc source body node parent mode o e := by
  have hbinding : node.kind ∉ bindingKinds := by
    simp only [scopeKinds, List.mem_cons, List.not_mem_nil, or_false] at hk
    rcases hk with hk | hk | hk | hk | hk | hk | hk <;> rw [hk] <;> decide
  refine exists_planned hbinding ?_ (Edit.allWithin_nil _ _) ?_
  · rw [visit_scope hk]
    exact runs_pure () mode.flag
  · rw [render_scope hk]
    exact Edit.patch_nil source (Nat.le_of_lt h.covers.2.2)

def assignment (doc : Document) (node : SyntaxTree) : List Edit :=
  [.insertBefore (doc.first node)
      (.plain ("void (".toList ++ namespaceDot ++ doc.declaredName node ++ ['='])),
    .insertAfter (doc.past node) (.plain ");".toList)]

theorem assignment_within (hcov : doc.Covers node) : doc.InNode node (assignment doc node) :=
  hcov.around_within _ _

theorem runs_planNamed (hcov : doc.Covers node) (hordered : doc.Ordered node)
    (hname : (node.child? "name").isSome) (flag : Bool) :
    (planNamed doc node).Plans flag (assignment doc node) := by
  obtain ⟨name, hname⟩ := Option.isSome_iff_exists.mp hname
  have hcovname : doc.Covers name := (hordered.mem (SyntaxTree.mem_children_of_child? hname)).1
  have hdeclared : doc.declaredName node = doc.spelling name := by
    rw [Document.declaredName, hname]
    rfl
  unfold assignment
  rw [hdeclared]
  exact Runs.bind (runs_need hname flag) (Runs.bind (runs_ask hcovname.nodeText_eq flag)
    (Plans.seq (runs_before hcov _ flag) (runs_after hcov _ flag)))

theorem patch_assignment (hcov : doc.Covers node) (source : MappedText) (edits : List Edit) :
    Edit.patch source (edits ++ assignment doc node) (doc.first node) (doc.past node) =
      doc.assigned node (Edit.patch source edits (doc.first node) (doc.past node)) := by
  rw [assignment, Edit.patch_around source edits _ _ hcov.2.2]
  simp only [Fragment.toMapped, Document.assigned, MappedText.ofString, MappedText.ofChars_append,
    List.append_assoc]
  rfl

theorem function (h : Ready doc source body node mode own extra)
    (hk : node.kind ∈ functionDeclarationKinds) :
    ∃ o e, Planned doc source body node parent mode o e := by
  have hbinding : node.kind ∉ bindingKinds := by
    simp only [functionDeclarationKinds, List.mem_cons, List.not_mem_nil, or_false] at hk
    rcases hk with hk | hk <;> rw [hk] <;> decide
  have hpatch := patch_assignment h.covers source []
  rw [List.nil_append, Edit.patch_nil source (Nat.le_of_lt h.covers.2.2)] at hpatch
  refine exists_planned hbinding ?_ (assignment_within h.covers) ?_
  · rw [visit_function hk]
    exact runs_planNamed h.covers h.shaped.ordered (h.shaped.named (Or.inr hk)) mode.flag
  · rw [render_function hk]
    exact hpatch

theorem class_ (h : Ready doc source body node mode own extra)
    (hk : node.kind = "class_declaration") :
    ∃ o e, Planned doc source body node parent mode o e := by
  have hscope : node.kind ∉ scopeKinds := by rw [hk]; decide
  have hbinding : node.kind ∉ bindingKinds := by rw [hk]; decide
  have hoff : mode = .off := h.mode_off (by rw [hk]; decide) hscope
  subst hoff
  have hwalk := h.walkAll hscope (by rw [hk]; decide) (by rw [hk]; decide) (by rw [hk]; decide)
  have hpatch := h.patch_kept hscope (by rw [hk]; decide) (by rw [hk]; decide) (by rw [hk]; decide)
  cases htop : parent.sameNode body with
  | true =>
    have hwithin : doc.InNode node (allOf node .off own ++ assignment doc node) :=
      (h.own_within hscope).append (assignment_within h.covers)
    refine exists_planned hbinding ?_ hwithin ?_
    · rw [visit_class hk, htop, if_pos rfl]
      exact Plans.seq hwalk
        (runs_planNamed h.covers h.shaped.ordered (h.shaped.named (Or.inl hk)) false)
    · rw [patch_assignment h.covers, hpatch, htop, render_class hk, if_pos rfl]
  | false =>
    refine exists_planned hbinding ?_ (h.own_within hscope) ?_
    · have hdone := Plans.seq hwalk (runs_pure () false)
      rw [List.append_nil] at hdone
      rw [visit_class hk, htop, if_neg Bool.false_ne_true]
      exact hdone
    · rw [hpatch, htop, render_class hk, if_neg Bool.false_ne_true]

/-! ### Patterns -/

/-- Unless names stay, a pattern does `step` to its parts. -/
theorem runs_steps (h : Ready doc source body node mode own extra) {target : NameMode}
    {step : SyntaxTree → Planner Unit} (hscope : node.kind ∉ scopeKinds)
    (hchild : ∀ child, childMode node mode child = mode.into target)
    (hstep : ∀ child, target.extra doc child = step child) :
    (do if ← qualifying then node.constructs.forM step).Plans mode.flag
      (allOf node mode extra) := by
  by_cases hoff : mode = .off
  · subst hoff
    rw [h.extra_nil hscope fun child _ => childMode_off node child]
    exact Runs.bind (runs_qualifying false) (runs_pure () false)
  · have hflag : mode.flag = true := bne_iff_ne.mpr hoff
    have hall : (node.constructs.forM step).Plans true (allOf node mode extra) := by
      apply runs_forM
      intro child hc
      have hmode : childMode node mode child = target := by
        rw [hchild, NameMode.into, if_neg hoff]
      have hasked := (h.below child (SyntaxTree.mem_children_of_mem_constructs hc) _
        (h.allowed_constructs hscope child hc)).asked true
      rw [hmode, hstep child] at hasked
      rw [hmode]
      exact hasked
    rw [hflag]
    exact Runs.bind (runs_qualifying true) hall

theorem pattern (h : Ready doc source body node mode own extra) {target : NameMode}
    {step : SyntaxTree → Planner Unit} (hk : node.kind ∉ statementKinds)
    (hscope : node.kind ∉ scopeKinds) (hbinding : node.kind ∉ bindingKinds)
    (hdeclarator : node.kind ≠ "variable_declarator")
    (hvisit : node.fold (visitScope doc body) parent = (do
      NotebookCell.walkAll (walked doc body node)
      if ← qualifying then node.constructs.forM step))
    (hchild : ∀ child, childMode node mode child = mode.into target)
    (hstep : ∀ child, target.extra doc child = step child) :
    ∃ o e, Planned doc source body node parent mode o e := by
  have hassign : node.kind ≠ "assignment_pattern" := fun he => hbinding (by rw [he]; decide)
  have hobject : node.kind ≠ "object_assignment_pattern" := fun he => hbinding (by rw [he]; decide)
  have hid : (node.kind == "identifier") = false :=
    beq_eq_false_iff_ne.mpr fun he => hbinding (by rw [he]; decide)
  have hshort : (node.kind == "shorthand_property_identifier_pattern") = false :=
    beq_eq_false_iff_ne.mpr fun he => hbinding (by rw [he]; decide)
  have hwalk := h.walkAll hscope hdeclarator hassign hobject
  have hpatch := h.patch_all hscope hdeclarator hassign hobject
  have hwithin : doc.InNode node (allOf node mode own ++ allOf node mode extra) :=
    (h.own_within hscope).append (h.extra_within hscope)
  refine exists_planned hbinding ?_ hwithin ?_
  · rw [hvisit]
    exact Plans.seq hwalk (h.runs_steps hscope hchild hstep)
  · rw [hpatch, render_other hk hscope, hid, hshort, Bool.false_and, Bool.false_and,
      if_neg Bool.false_ne_true, if_neg Bool.false_ne_true]

theorem objectPattern (h : Ready doc source body node mode own extra)
    (hk : node.kind = "object_pattern") : ∃ o e, Planned doc source body node parent mode o e := by
  have hchild : ∀ child, childMode node mode child = mode.into .property := by
    intro child
    rw [childMode, hk]
    rfl
  exact h.pattern (by rw [hk]; decide) (by rw [hk]; decide) (by rw [hk]; decide)
    (by rw [hk]; decide) (visit_objectPattern hk) hchild fun _ => rfl

theorem arrayPattern (h : Ready doc source body node mode own extra)
    (hk : node.kind = "array_pattern") : ∃ o e, Planned doc source body node parent mode o e := by
  have hchild : ∀ child, childMode node mode child = mode.into .bound := by
    intro child
    rw [childMode, hk]
    rfl
  exact h.pattern (by rw [hk]; decide) (by rw [hk]; decide) (by rw [hk]; decide)
    (by rw [hk]; decide) (visit_arrayPattern hk) hchild fun _ => rfl

/-! ### Nodes without a rule -/

/-- Without a rule for the node, its edits are those of its constructs, and what its pattern plans
for it is what its pattern would plan for them. -/
theorem plain (h : Ready doc source body node mode own extra) (hk : node.kind ∉ ruledKinds)
    (hasked : ∀ flag, (mode.extra doc node).Plans flag (allOf node mode extra))
    (hid : (node.kind == "identifier" && mode == .bound) = false)
    (hshort : (node.kind == "shorthand_property_identifier_pattern" && mode == .property) = false) :
    ∃ o e, Planned doc source body node parent mode o e := by
  simp only [ruledKinds, List.mem_append, List.mem_cons, List.not_mem_nil, or_false, not_or] at hk
  obtain ⟨⟨hstatement, hdeclarator, hpattern, harray, hassign, hobject⟩, hscope⟩ := hk
  have hruled : node.kind ∉ ruledKinds := by
    simp only [ruledKinds, List.mem_append, List.mem_cons, List.not_mem_nil, or_false, not_or]
    exact ⟨⟨hstatement, hdeclarator, hpattern, harray, hassign, hobject⟩, hscope⟩
  refine ⟨_, _, ?_, hasked, h.own_within hscope, h.extra_within hscope, ?_⟩
  · rw [visit_other hruled]
    exact h.walkAll hscope hdeclarator hassign hobject
  · rw [h.patch_all hscope hdeclarator hassign hobject, render_other hstatement hscope, hid, hshort,
      if_neg Bool.false_ne_true, if_neg Bool.false_ne_true]

/-- What the pattern plans for the node is one edit, which puts a text beside the node. -/
theorem marked (h : Ready doc source body node mode own extra) (beside : MappedText → MappedText)
    (hk : node.kind ∉ ruledKinds) (hinner : ∀ child, childMode node mode child = mode.inner)
    {mark : Edit} (hasked : ∀ flag, (mode.extra doc node).Plans flag [mark])
    (hmark : mark.Within (doc.first node) (doc.past node))
    (hpatch : ∀ edits, Edit.patch source (edits ++ [mark]) (doc.first node) (doc.past node) =
      beside (Edit.patch source edits (doc.first node) (doc.past node)))
    (hrender : renderScope doc source node (parent.sameNode body) mode =
      beside (rendered doc source node mode)) :
    ∃ o e, Planned doc source body node parent mode o e := by
  have hparts := hk
  simp only [ruledKinds, List.mem_append, List.mem_cons, List.not_mem_nil, or_false, not_or] at hparts
  obtain ⟨⟨_, hdeclarator, _, _, hassign, hobject⟩, hscope⟩ := hparts
  have hall := h.patch_all hscope hdeclarator hassign hobject
  rw [h.extra_nil hscope fun child _ => hinner child, List.append_nil] at hall
  refine ⟨_, [mark], ?_, hasked, h.own_within hscope, Edit.allWithin_singleton hmark, ?_⟩
  · rw [visit_other hk]
    exact h.walkAll hscope hdeclarator hassign hobject
  · rw [hpatch, hall, hrender]

theorem identifier (h : Ready doc source body node .bound own extra)
    (hk : node.kind = "identifier") :
    ∃ o e, Planned doc source body node parent .bound o e := by
  have hlt := h.covers.2.2
  have htarget : node.isTarget = true := by
    rw [SyntaxTree.isTarget, hk]
    rfl
  have hinner : ∀ child, childMode node .bound child = NameMode.bound.inner := by
    intro child
    rw [childMode, hk]
    rfl
  have hasked : ∀ flag, (NameMode.bound.extra doc node).Plans flag
      [.insertBefore (doc.first node) (.plain namespaceDot)] := by
    intro flag
    rw [NameMode.extra, planQualified_of_isTarget htarget, if_pos (by rw [hk]; rfl)]
    exact runs_before h.covers namespaceDot flag
  have hmark : (Edit.insertBefore (doc.first node) (.plain namespaceDot)).Within
      (doc.first node) (doc.past node) := by
    simp only [Edit.Within]
    omega
  refine h.marked (.ofChars namespaceDot none ++ ·) (by rw [hk]; decide) hinner hasked hmark
    (fun edits => Edit.patch_insertBefore source edits (.plain namespaceDot) hlt) ?_
  rw [render_other (by rw [hk]; decide) (by rw [hk]; decide), hk]
  rfl

theorem shorthand (h : Ready doc source body node .property own extra)
    (hk : node.kind = "shorthand_property_identifier_pattern") :
    ∃ o e, Planned doc source body node parent .property o e := by
  have hlt := h.covers.2.2
  have hinner : ∀ child, childMode node .property child = NameMode.property.inner := by
    intro child
    rw [childMode, hk]
    rfl
  have hasked : ∀ flag, (NameMode.property.extra doc node).Plans flag
      [.insertAfter (doc.past node) (.plain (':' :: (namespaceDot ++ doc.spelling node)))] := by
    intro flag
    rw [NameMode.extra, planProperty_of_ne (by rw [hk]; decide), if_pos (by rw [hk]; rfl)]
    exact Runs.bind (runs_ask h.covers.nodeText_eq flag) (runs_after h.covers _ flag)
  have hmark : (Edit.insertAfter (doc.past node)
      (.plain (':' :: (namespaceDot ++ doc.spelling node)))).Within
      (doc.first node) (doc.past node) := by
    simp only [Edit.Within]
    omega
  refine h.marked (· ++ .ofChars (':' :: (namespaceDot ++ doc.spelling node)) none)
    (by rw [hk]; decide) hinner hasked hmark
    (fun edits => Edit.patch_insertAfter source edits _ hlt) ?_
  rw [render_other (by rw [hk]; decide) (by rw [hk]; decide), hk]
  rfl

theorem firstConstruct_of_singleton {part : SyntaxTree} (hparts : node.constructs = [part]) :
    node.firstConstruct = .ok part := by
  rw [SyntaxTree.firstConstruct, hparts]

theorem rest (h : Ready doc source body node mode own extra) (hk : node.kind = "rest_pattern") :
    ∃ o e, Planned doc source body node parent mode o e := by
  have hruled : node.kind ∉ ruledKinds := by rw [hk]; decide
  have hscope : node.kind ∉ scopeKinds := by rw [hk]; decide
  obtain ⟨hone, htargets⟩ := h.shaped.rest hk
  obtain ⟨part, hparts⟩ := List.length_eq_one_iff.mp hone
  have hpart : part ∈ node.constructs := by
    rw [hparts]
    exact List.mem_singleton_self part
  have htarget : part.isTarget = true := htargets part hpart
  have hsame : planQualified doc node = planQualified doc part := by
    have hbound : boundTarget node = pure (some part) := by
      rw [boundTarget, if_neg (by rw [hk]; decide), if_pos (by rw [hk]; rfl),
        firstConstruct_of_singleton hparts]
      rfl
    rw [planQualified_of_isTarget htarget, planQualified, hbound]
    rfl
  have hall : allOf node mode extra = extra part (childMode node mode part) := by
    rw [allOf, hparts, List.flatMap_cons, List.flatMap_nil, List.append_nil]
  have hplanned := h.below part (SyntaxTree.mem_children_of_mem_constructs hpart) _
    (h.allowed_constructs hscope part hpart)
  have hasked : ∀ flag, (mode.extra doc node).Plans flag (allOf node mode extra) := by
    intro flag
    rw [hall]
    have hpartAsked := hplanned.asked flag
    rw [childMode, hk] at hpartAsked ⊢
    cases mode with
    | off => exact hpartAsked
    | on => exact hpartAsked
    | bound =>
      rw [NameMode.extra, hsame]
      exact hpartAsked
    | property =>
      rw [NameMode.extra, planProperty_of_ne (by rw [hk]; decide), if_neg (by rw [hk]; decide),
        if_neg (by rw [hk]; decide), if_pos (by rw [hk]; rfl), hsame]
      exact hpartAsked
  exact h.plain hruled hasked (by rw [hk]; rfl) (by rw [hk]; rfl)

end Ready

/-! ### Fields -/

theorem fields_singleton {field : String} (hone : (node.fields field).length = 1) :
    ∃ child, node.fields field = [child] ∧ node.child? field = some child ∧
      child ∈ node.children ∧ child.isField field = true := by
  obtain ⟨child, hfields⟩ := List.length_eq_one_iff.mp hone
  have hmem : child ∈ node.fields field := by
    rw [hfields]
    exact List.mem_singleton_self child
  obtain ⟨hchild, hfield⟩ := List.mem_filter.mp hmem
  have hfind : node.child? field = some child := by
    rw [SyntaxTree.child?, ← List.head?_filter]
    exact congrArg List.head? hfields
  exact ⟨child, hfields, hfind, hchild, hfield⟩

theorem fields_of_child? {field : String} (hle : (node.fields field).length ≤ 1) :
    node.fields field = (node.child? field).toList := by
  rw [SyntaxTree.child?, ← List.head?_filter]
  cases hfields : node.fields field with
  | nil =>
    rw [SyntaxTree.fields] at hfields
    rw [hfields]
    rfl
  | cons child rest =>
    rw [hfields, List.length_cons] at hle
    have hrest : rest = [] := List.length_eq_zero_iff.mp (by omega)
    rw [SyntaxTree.fields] at hfields
    rw [hfields, hrest]
    rfl

namespace Ready

theorem pair (h : Ready doc source body node .property own extra) (hk : node.kind = "pair_pattern") :
    ∃ o e, Planned doc source body node parent .property o e := by
  have hruled : node.kind ∉ ruledKinds := by rw [hk]; decide
  have hscope : node.kind ∉ scopeKinds := by rw [hk]; decide
  obtain ⟨hone, hconstruct⟩ := h.shaped.pair hk
  obtain ⟨value, hfields, hvalue, hmem, hfield⟩ := fields_singleton hone
  have hchild : ∀ child, childMode node .property child =
      if child.isField "value" then .bound else .on := by
    intro child
    rw [childMode, hk]
    cases child.isField "value" <;> rfl
  have hvalueConstruct : value.isConstruct = true := by
    apply hconstruct
    rw [hfields]
    exact List.mem_singleton_self value
  -- only the value gets edits from the pattern
  have hall : allOf node .property extra = extra value .bound := by
    have hothers : ∀ child ∈ node.constructs, child.isField "value" = false →
        extra child (childMode node .property child) = [] := by
      intro child hc hno
      have hplanned := h.below child (SyntaxTree.mem_children_of_mem_constructs hc) _
        (h.allowed_constructs hscope child hc)
      apply hplanned.extra_eq_nil
      rw [hchild, hno]
      rfl
    have hvalues : node.constructs.filter (SyntaxTree.isField "value") = [value] := by
      rw [SyntaxTree.constructs, List.filter_filter, ← hfields, SyntaxTree.fields]
      apply List.filter_congr
      intro child hc
      cases hv : child.isField "value" with
      | false => rfl
      | true =>
        have hin : child ∈ node.fields "value" := List.mem_filter.mpr ⟨hc, hv⟩
        rw [hfields] at hin
        rw [List.mem_singleton.mp hin, hvalueConstruct]
        rfl
    rw [allOf, flatMap_eq_of_filter hothers, hvalues, List.flatMap_cons, List.flatMap_nil,
      List.append_nil, hchild, hfield]
    rfl
  have hasked : ∀ flag, (NameMode.property.extra doc node).Plans flag
      (allOf node .property extra) := by
    intro flag
    have hvalueIn : value ∈ node.constructs := List.mem_filter.mpr ⟨hmem, hvalueConstruct⟩
    have hallowed := h.allowed_constructs hscope value hvalueIn
    rw [hchild, hfield] at hallowed
    have hplanned := (h.below value hmem .bound hallowed).asked flag
    rw [hall, NameMode.extra, planProperty_of_ne (by rw [hk]; decide), if_neg (by rw [hk]; decide),
      if_pos (by rw [hk]; rfl)]
    exact Runs.bind (runs_need hvalue flag) hplanned
  exact h.plain hruled hasked (by rw [hk]; rfl) (by rw [hk]; rfl)

theorem other (h : Ready doc source body node mode own extra) (hk : node.kind ∉ ruledKinds) :
    ∃ o e, Planned doc source body node parent mode o e := by
  have hparts := hk
  simp only [ruledKinds, List.mem_append, List.mem_cons, List.not_mem_nil, or_false, not_or] at hparts
  obtain ⟨⟨_, hdeclarator, hobjects, harrays, hassign, hobject⟩, hscope⟩ := hparts
  by_cases hrest : node.kind = "rest_pattern"
  · exact h.rest hrest
  by_cases hid : mode = .bound ∧ node.kind = "identifier"
  · obtain ⟨rfl, hid⟩ := hid
    exact h.identifier hid
  by_cases hshort : mode = .property ∧ node.kind = "shorthand_property_identifier_pattern"
  · obtain ⟨rfl, hshort⟩ := hshort
    exact h.shorthand hshort
  by_cases hpair : mode = .property ∧ node.kind = "pair_pattern"
  · obtain ⟨rfl, hpair⟩ := hpair
    exact h.pair hpair
  have hinner : ∀ child ∈ node.constructs, childMode node mode child = mode.inner := by
    intro child _
    have hvalue : ¬(mode = .property ∧ child.isField "value" = true ∧ node.kind = "pair_pattern") :=
      fun hv => hpair ⟨hv.1, hv.2.2⟩
    simp only [childMode, beq_iff_eq, hdeclarator, hassign, hobject, hobjects, harrays, hrest,
      if_false, ite_eq_right_iff]
    intro hkind hv
    exact absurd ⟨hv.1, hv.2, hkind⟩ hvalue
  have hasked : ∀ flag, (mode.extra doc node).Plans flag (allOf node mode extra) := by
    intro flag
    rw [h.extra_nil hscope hinner]
    exact extra_quiet_of hrest hassign hobject (fun hm he => hid ⟨hm, he⟩)
      (fun hm he => hshort ⟨hm, he⟩) (fun hm he => hpair ⟨hm, he⟩) flag
  apply h.plain hk hasked
  · rw [Bool.and_eq_false_iff, beq_eq_false_iff_ne, beq_eq_false_iff_ne]
    exact not_and_or.mp fun hboth => hid ⟨hboth.2, hboth.1⟩
  · rw [Bool.and_eq_false_iff, beq_eq_false_iff_ne, beq_eq_false_iff_ne]
    exact not_and_or.mp fun hboth => hshort ⟨hboth.2, hboth.1⟩

end Ready

end NotebookCell
