import NotebookCell.Proofs.Scope.Kinds

/-!
# Declarations, declarators, defaults and loops

The kinds of node at which the walk does something of its own to the order of its steps: it goes into
fields one by one, switches the flag, or takes text away.
-/

namespace NotebookCell

open Planner

variable {doc : Document} {source : MappedText} {body node parent : SyntaxTree} {mode : NameMode}
  {own extra : SyntaxTree → NameMode → List Edit}

/-! ### Two fields -/

theorem walkField_walked {field : String} {child : SyntaxTree}
    (h : node.child? field = some child) :
    walkField node (walked doc body node) field = child.fold (visitScope doc body) node := by
  cases node with
  | node info children => exact walkField_map info children _ field h

/-- The edits of one child under the field `f`, in two parts, around those of at most one child under
the field `g`. -/
theorem over_fields (hordered : doc.Ordered node) {f g : String} (hfg : f ≠ g) {a : SyntaxTree}
    (ha : node.fields f = [a]) (hg : (node.fields g).length ≤ 1) {front back : List Edit}
    {middle merged : SyntaxTree → List Edit} (hfront : doc.InNode a front)
    (hback : doc.InNode a back) (hmiddle : ∀ b ∈ node.fields g, doc.InNode b (middle b))
    (hmerged : merged a = front ++ back) (hmerged' : ∀ b ∈ node.fields g, merged b = middle b) :
    doc.Over (node.children.filter fun child => child.isField f || child.isField g) merged
      (front ++ (node.fields g).flatMap middle ++ back) := by
  have hrow := hordered.filter fun child => child.isField f || child.isField g
  have hmema : a ∈ node.fields f := by
    rw [ha]
    exact List.mem_singleton_self a
  obtain ⟨hchilda, hfielda⟩ := List.mem_filter.mp hmema
  have hina : a ∈ node.children.filter fun child => child.isField f || child.isField g := by
    rw [List.mem_filter, hfielda]
    exact ⟨hchilda, rfl⟩
  have hitems : ∀ item ∈ node.children.filter fun child => child.isField f || child.isField g,
      item = a ∨ item ∈ node.fields g := by
    intro item hitem
    obtain ⟨hchild, hfield⟩ := List.mem_filter.mp hitem
    rcases Bool.or_eq_true_iff.mp hfield with hf | hf
    · have hin : item ∈ node.fields f := List.mem_filter.mpr ⟨hchild, hf⟩
      rw [ha] at hin
      exact Or.inl (List.mem_singleton.mp hin)
    · exact Or.inr (List.mem_filter.mpr ⟨hchild, hf⟩)
  have hfrontOver := Document.over_single hrow hina hfront
  have hbackOver := Document.over_single hrow hina hback
  cases hb : node.fields g with
  | nil =>
    rw [List.flatMap_nil, List.append_nil]
    apply (hfrontOver.append hbackOver).congr
    intro item hitem
    rcases hitems item hitem with rfl | hitem
    · rw [if_pos rfl, if_pos rfl, hmerged]
    · rw [hb] at hitem
      cases hitem
  | cons b rest =>
    have hrest : rest = [] := by
      rw [hb, List.length_cons] at hg
      exact List.length_eq_zero_iff.mp (by omega)
    have hmemb : b ∈ node.fields g := by
      rw [hb]
      exact List.mem_cons_self
    obtain ⟨hchildb, hfieldb⟩ := List.mem_filter.mp hmemb
    have hinb : b ∈ node.children.filter fun child => child.isField f || child.isField g := by
      rw [List.mem_filter, hfieldb, Bool.or_true]
      exact ⟨hchildb, rfl⟩
    have hne : a ≠ b := by
      rintro rfl
      rw [SyntaxTree.isField, beq_iff_eq] at hfielda hfieldb
      exact hfg (Option.some.inj (hfielda.symm.trans hfieldb))
    have hfirst := hrow.first_ne hina hinb hne
    have hmiddleOver := Document.over_single hrow hinb (hmiddle b hmemb)
    rw [hrest, List.flatMap_cons, List.flatMap_nil, List.append_nil]
    apply ((hfrontOver.append hmiddleOver).append hbackOver).congr
    intro item hitem
    rcases hitems item hitem with rfl | hitem
    · rw [if_pos rfl, if_neg hfirst, if_pos rfl, List.append_nil, hmerged]
    · have hsame : item = b := by
        rw [hb, hrest] at hitem
        exact List.mem_singleton.mp hitem
      rw [hsame, if_neg hfirst.symm, if_pos rfl, if_neg hfirst.symm, List.nil_append, List.append_nil,
        hmerged' b hmemb]

namespace Ready

/-- The edits of a node two of whose fields are walked into, `f` in its own mode and `g` with names
left alone. -/
theorem over_two (h : Ready doc source body node mode own extra) (hscope : node.kind ∉ scopeKinds)
    {f g : String} (hfg : f ≠ g) {a : SyntaxTree} (ha : node.fields f = [a])
    (hg : (node.fields g).length ≤ 1)
    (hoff : ∀ b ∈ node.fields g, childMode node mode b = .off) :
    doc.Over (node.children.filter fun child => child.isField f || child.isField g)
      (fun child => own child (childMode node mode child) ++ extra child (childMode node mode child))
      (own a (childMode node mode a) ++ (node.fields g).flatMap (fun b => own b .off) ++
        extra a (childMode node mode a)) := by
  have hmema : a ∈ node.children := by
    have hin : a ∈ node.fields f := by
      rw [ha]
      exact List.mem_singleton_self a
    exact (List.mem_filter.mp hin).1
  have hplanned := h.below a hmema _ (childMode_allowed h.allowed hscope hmema)
  have hplannedg := fun b (hb : b ∈ node.fields g) =>
    h.below b (List.mem_filter.mp hb).1 .off (Or.inl rfl)
  refine over_fields h.shaped.ordered hfg ha hg hplanned.own_within hplanned.extra_within
    (fun b hb => (hplannedg b hb).own_within) rfl fun b hb => ?_
  have hnone : extra b .off = [] := (hplannedg b hb).extra_eq_nil rfl
  rw [hoff b hb, hnone, List.append_nil]

/-! ### Declarators -/

theorem declarator (h : Ready doc source body node mode own extra)
    (hk : node.kind = "variable_declarator") :
    ∃ o e, Planned doc source body node parent mode o e := by
  have hscope : node.kind ∉ scopeKinds := by rw [hk]; decide
  have hbinding : node.kind ∉ bindingKinds := by rw [hk]; decide
  obtain ⟨hone, hatMost, htargets⟩ := h.shaped.declarator hk
  obtain ⟨name, hnames, hname, hmem, hfield⟩ := fields_singleton hone
  have htarget : name.isTarget = true := by
    apply htargets
    rw [hnames]
    exact List.mem_singleton_self name
  have hmode : childMode node mode name = mode.into .bound := by
    rw [childMode, hk, hfield]
    rfl
  have hvalues : ∀ value ∈ node.fields "value", childMode node mode value = .off := by
    intro value hv
    have hother : value.isField "name" = false := by
      have hv' := (List.mem_filter.mp hv).2
      rw [SyntaxTree.isField, beq_iff_eq] at hv'
      rw [SyntaxTree.isField, hv']
      rfl
    rw [childMode, hk, hother]
    rfl
  have hshown : node.children.filter (rendersChild node) =
      node.children.filter fun child => child.isField "name" || child.isField "value" := by
    apply List.filter_congr
    intro child _
    rw [rendersChild, hk]
    rfl
  have hover := h.over_two hscope (by decide) hnames hatMost hvalues
  have hrow := h.shaped.ordered.filter fun child => child.isField "name" || child.isField "value"
  have hpatch := h.below.patch_eq h.deep hrow (fun child hc => (List.mem_filter.mp hc).1)
    (fun child hc => childMode_allowed h.allowed hscope (List.mem_filter.mp hc).1) hover
  have hplanned := h.below name hmem _ (childMode_allowed h.allowed hscope hmem)
  refine ⟨_, [], ?_, extra_quiet hbinding mode, hover.allWithin hrow, Edit.allWithin_nil _ _, ?_⟩
  · have hwalkName := hplanned.walk
    have hflag : (mode.into .bound).flag = mode.flag := by cases mode <;> rfl
    rw [hmode, hflag, ← walkField_walked hname] at hwalkName
    -- at last the name itself is moved, if names are
    have hend : (do if (← qualifying) && name.kind == "identifier" then
        before doc name namespaceDot).Plans mode.flag (extra name (childMode node mode name)) := by
      by_cases hoff : mode = .off
      · have hnone : extra name (childMode node mode name) = [] := by
          apply hplanned.extra_eq_nil
          rw [hmode, hoff]
          rfl
        rw [hnone, hoff]
        exact Runs.bind (runs_qualifying false) (runs_pure () false)
      · have hbound : childMode node mode name = .bound := by
          rw [hmode, NameMode.into, if_neg hoff]
        have hasked := hplanned.asked true
        rw [hbound, NameMode.extra, planQualified_of_isTarget htarget] at hasked
        have hon : mode.flag = true := bne_iff_ne.mpr hoff
        rw [hon, hbound]
        exact Runs.bind (runs_qualifying true) hasked
    have hvalue : (do
        if (node.child? "value").isSome then
          unqualified (walkField node (walked doc body node) "value")
        if (← qualifying) && name.kind == "identifier" then
          before doc name namespaceDot).Plans mode.flag
        ((node.fields "value").flatMap (fun value => own value .off) ++
          extra name (childMode node mode name)) := by
      rw [fields_of_child? hatMost]
      cases hvalue : node.child? "value" with
      | none => exact hend
      | some value =>
        have hwalkValue := (h.below value (SyntaxTree.mem_children_of_child? hvalue) .off
          (Or.inl rfl)).walk
        rw [← walkField_walked hvalue] at hwalkValue
        rw [Option.toList_some, List.flatMap_cons, List.flatMap_nil, List.append_nil]
        exact Plans.seq (hwalkValue.unqualified mode.flag) hend
    have hall : (visitDeclarator doc node (walked doc body node)).Plans mode.flag
        ([] ++ (own name (mode.into .bound) ++
          ((node.fields "value").flatMap (fun value => own value .off) ++
            extra name (childMode node mode name)))) :=
      Runs.bind (runs_need hname mode.flag) (Plans.seq hwalkName hvalue)
    rw [List.nil_append, ← hmode, ← List.append_assoc] at hall
    rw [visit_declarator hk]
    exact hall
  · rw [List.append_nil, hpatch, ← hshown, render_other (by rw [hk]; decide) hscope, hk]
    rfl

/-! ### Defaults -/

theorem withDefault (h : Ready doc source body node mode own extra)
    (hk : node.kind = "assignment_pattern" ∨ node.kind = "object_assignment_pattern") :
    ∃ o e, Planned doc source body node parent mode o e := by
  have hscope : node.kind ∉ scopeKinds := by rcases hk with hk | hk <;> rw [hk] <;> decide
  have hstatement : node.kind ∉ statementKinds := by rcases hk with hk | hk <;> rw [hk] <;> decide
  obtain ⟨hone, honeRight, htargets⟩ := h.shaped.withDefault hk
  obtain ⟨left, hlefts, hleft, hmem, hfield⟩ := fields_singleton hone
  obtain ⟨right, hrights, hright, hmemRight, _⟩ := fields_singleton honeRight
  obtain ⟨htarget, hobject⟩ := htargets left (by rw [hlefts]; exact List.mem_singleton_self left)
  have hoff : ∀ part ∈ node.fields "right", childMode node mode part = .off := by
    intro part hp
    have hother : part.isField "left" = false := by
      have hp' := (List.mem_filter.mp hp).2
      rw [SyntaxTree.isField, beq_iff_eq] at hp'
      rw [SyntaxTree.isField, hp']
      rfl
    rw [childMode, hother]
    rcases hk with hk | hk <;> rw [hk] <;> rfl
  have hshown : node.children.filter (rendersChild node) =
      node.children.filter fun child => child.isField "left" || child.isField "right" := by
    apply List.filter_congr
    intro child _
    rw [rendersChild]
    rcases hk with hk | hk <;> rw [hk] <;> rfl
  have hover := h.over_two hscope (by decide) hlefts (Nat.le_of_eq honeRight) hoff
  have hrow := h.shaped.ordered.filter fun child => child.isField "left" || child.isField "right"
  have hpatch := h.below.patch_eq h.deep hrow (fun child hc => (List.mem_filter.mp hc).1)
    (fun child hc => childMode_allowed h.allowed hscope (List.mem_filter.mp hc).1) hover
  have hplanned := h.below left hmem _ (childMode_allowed h.allowed hscope hmem)
  have hplannedRight := h.below right hmemRight .off (Or.inl rfl)
  rw [hrights, List.flatMap_cons, List.flatMap_nil, List.append_nil] at hpatch
  have hwithin : doc.InNode node (own left (childMode node mode left) ++ own right .off) :=
    (hplanned.own_within.mono (h.shaped.ordered.mem hmem).2.1 (h.shaped.ordered.mem hmem).2.2).append
      (hplannedRight.own_within.mono (h.shaped.ordered.mem hmemRight).2.1
        (h.shaped.ordered.mem hmemRight).2.2)
  have hwithin' : doc.InNode node (extra left (childMode node mode left)) :=
    hplanned.extra_within.mono (h.shaped.ordered.mem hmem).2.1 (h.shaped.ordered.mem hmem).2.2
  have hasked : ∀ flag, (mode.extra doc node).Plans flag (extra left (childMode node mode left)) := by
    intro flag
    have hleftAsked := hplanned.asked flag
    rw [childMode, hfield] at hleftAsked ⊢
    rcases hk with hk | hk
    · rw [hk] at hleftAsked ⊢
      cases mode with
      | off => exact hleftAsked
      | on => exact hleftAsked
      | bound =>
        have hbound : boundTarget node = pure (some left) := by
          rw [boundTarget, if_pos (by rw [hk]; rfl), hleft]
        have hsame : planQualified doc node = planQualified doc left := by
          rw [planQualified_of_isTarget htarget, planQualified, hbound]
          rfl
        rw [NameMode.extra, hsame]
        exact hleftAsked
      | property =>
        rw [NameMode.extra, planProperty_of_ne (by rw [hk]; decide), if_neg (by rw [hk]; decide),
          if_neg (by rw [hk]; decide), if_neg (by rw [hk]; decide)]
        exact hleftAsked
    · rw [hk] at hleftAsked ⊢
      cases mode with
      | off => exact hleftAsked
      | on => exact hleftAsked
      | bound =>
        have hown : node.isTarget = true := by
          rw [SyntaxTree.isTarget, hk]
          rfl
        rw [NameMode.extra, planQualified_of_isTarget hown, if_neg (by rw [hk]; decide)]
        exact hleftAsked
      | property =>
        have hsame : planProperty doc node = planProperty doc left := by
          rw [planProperty_of_ne hobject, planProperty, if_pos (by rw [hk]; rfl), need, hleft]
          rfl
        rw [NameMode.extra, hsame]
        exact hleftAsked
  refine ⟨_, _, ?_, hasked, hwithin, hwithin', ?_⟩
  · have hwalkLeft := hplanned.walk
    have hwalkRight := hplannedRight.walk
    have hflag : (childMode node mode left).flag = mode.flag := by
      rw [childMode, hfield]
      rcases hk with hk | hk <;> rw [hk] <;> cases mode <;> rfl
    rw [hflag, ← walkField_walked hleft] at hwalkLeft
    rw [← walkField_walked hright] at hwalkRight
    rw [visit_default hk]
    exact Plans.seq hwalkLeft (hwalkRight.unqualified mode.flag)
  · rw [hpatch, ← hshown, render_other hstatement hscope]
    rcases hk with hk | hk <;> rw [hk] <;> rfl

/-! ### Declarations -/

def wrapping (doc : Document) (declarator : SyntaxTree) : List Edit :=
  [.insertBefore (doc.first declarator) (.plain ['(']),
    .insertAfter (doc.past declarator) (.plain
      (if (declarator.child? "value").isSome then [')'] else " = undefined)".toList))]

theorem wrapping_within {declarator : SyntaxTree} (hcov : doc.Covers declarator) :
    doc.InNode declarator (wrapping doc declarator) := hcov.around_within _ _

theorem runs_planDeclarator {declarator : SyntaxTree} (hcov : doc.Covers declarator) (flag : Bool) :
    (planDeclarator doc declarator).Plans flag (wrapping doc declarator) := by
  have hback : (if (declarator.child? "value").isSome then after doc declarator [')']
      else after doc declarator " = undefined)".toList).Plans flag
      [.insertAfter (doc.past declarator) (.plain
        (if (declarator.child? "value").isSome then [')'] else " = undefined)".toList))] := by
    cases (declarator.child? "value").isSome with
    | true => exact runs_after hcov [')'] flag
    | false => exact runs_after hcov " = undefined)".toList flag
  exact Plans.seq (runs_before hcov ['('] flag) hback

theorem patch_wrapping {declarator : SyntaxTree} (hcov : doc.Covers declarator)
    (source : MappedText) (edits : List Edit) :
    Edit.patch source (edits ++ wrapping doc declarator) (doc.first declarator)
        (doc.past declarator) =
      renderDeclarator declarator
        (Edit.patch source edits (doc.first declarator) (doc.past declarator)) := by
  rw [wrapping, Edit.patch_around source edits _ _ hcov.2.2, renderDeclarator]
  cases (declarator.child? "value").isSome <;> rfl

theorem runs_declarationKind (hordered : doc.Ordered node) (hdeclaration : node.IsDeclaration)
    (flag : Bool) : (declarationKind doc node).Runs flag (doc.keyword node) [] flag := by
  unfold declarationKind Document.keyword
  cases hkind : node.child? "kind" with
  | some kind =>
    have hcov := (hordered.mem (SyntaxTree.mem_children_of_child? hkind)).1
    exact runs_ask hcov.nodeText_eq flag
  | none =>
    cases hhead : node.children.head? with
    | none =>
      have hany := hdeclaration.1
      rw [hhead] at hany
      cases hany
    | some token =>
      have hcov := (hordered.mem (List.mem_of_head? hhead)).1
      exact runs_ask hcov.nodeText_eq flag

/-- The edits that turn the frame of a declaration into that of an expression. -/
def reframing (doc : Document) (node first last : SyntaxTree) : List Edit :=
  .replace (doc.first node) (doc.first first) (.plain "void (".toList) ::
    (node.constructs.flatMap (wrapping doc) ++
      [.insertAfter (doc.past last) (.plain [')'])])

theorem runs_planDeclaration (hcov : doc.Covers node) (hordered : doc.Ordered node)
    (hdeclaration : node.IsDeclaration) {first last : SyntaxTree}
    (hfirst : node.constructs.head? = some first) (hlast : node.constructs.getLast? = some last)
    (flag : Bool) : (planDeclaration doc node).Plans flag (reframing doc node first last) := by
  have hrow := hordered.filter SyntaxTree.isConstruct
  have hall : (node.constructs.filter fun child => child.kind == "variable_declarator") =
      node.constructs := by
    rw [List.filter_eq_self]
    intro child hc
    exact beq_iff_eq.mpr (hdeclaration.2.2.2 child hc).1
  have hcovFirst := (hrow.mem (List.mem_of_head? hfirst)).1
  have hcovLast := (hrow.mem (List.mem_of_getLast? hlast)).1
  have hwraps : (node.constructs.forM (planDeclarator doc)).Plans flag
      (node.constructs.flatMap (wrapping doc)) :=
    runs_forM fun child hc => runs_planDeclarator (hrow.mem hc).1 flag
  simp only [planDeclaration, hall, hfirst, hlast]
  exact Runs.bind (runs_ask hcov.start_eq flag) (Runs.bind (runs_ask hcovFirst.start_eq flag)
    (Plans.seq (runs_between _ _ _ flag) (Plans.seq hwraps (runs_after hcovLast [')'] flag))))

/-- What a moved declaration comes out as: its frame, its declarators and its end are patched apart. -/
theorem patch_reframing (h : Ready doc source body node mode own extra)
    (hdeclaration : node.IsDeclaration) {first last : SyntaxTree}
    (hfirst : node.constructs.head? = some first) (hlast : node.constructs.getLast? = some last) :
    doc.InNode node ((node.constructs.flatMap fun child => own child .on) ++
      reframing doc node first last) ∧
    Edit.patch source ((node.constructs.flatMap fun child => own child .on) ++
        reframing doc node first last) (doc.first node) (doc.past node) =
      renderMoved doc source node
        (node.children.map fun child => (child, renderScope doc source child)) := by
  have hrow := h.row
  have hinner := hrow.tighten hfirst hlast
  obtain ⟨hcovFirst, _, _⟩ := hrow.mem (List.mem_of_head? hfirst)
  obtain ⟨_, _, hlastPast⟩ := hrow.mem (List.mem_of_getLast? hlast)
  have hle := hinner.le
  have hltLast : doc.first first < doc.past last := by
    have hpast := (hinner.mem (List.mem_of_head? hfirst)).2.2
    have hlt := hcovFirst.2.2
    omega
  -- the keyword takes at least one character in front of the first declarator
  have hkeyword : doc.first node < doc.first first := by
    have hchildren := h.shaped.ordered
    unfold Document.Ordered at hchildren
    obtain ⟨hhead, -⟩ := hdeclaration
    have hmem := SyntaxTree.mem_children_of_mem_constructs (List.mem_of_head? hfirst)
    have hconstruct := (List.mem_filter.mp (List.mem_of_head? hfirst)).2
    cases hc : node.children with
    | nil =>
      rw [hc] at hmem
      cases hmem
    | cons keyword rest =>
      rw [hc] at hchildren hmem hhead
      obtain ⟨⟨_, _, hlt⟩, hlo, hrest⟩ := hchildren
      rcases List.mem_cons.mp hmem with rfl | hmem
      · rw [List.head?_cons, Option.any_some, hconstruct] at hhead
        cases hhead
      · have hafter := (hrest.mem hmem).2.1
        omega
  have hplanned := fun child (hc : child ∈ node.constructs) =>
    h.below child (SyntaxTree.mem_children_of_mem_constructs hc) .on
      (Or.inr (hdeclaration.2.2.2 child hc).2)
  have hover : doc.Over node.constructs (fun child => own child .on ++ wrapping doc child)
      ((node.constructs.flatMap fun child => own child .on) ++
        node.constructs.flatMap (wrapping doc)) :=
    (Document.over_flatMap hinner fun child hc => (hplanned child hc).own_within).append
      (Document.over_flatMap hinner fun child hc => wrapping_within (hinner.mem hc).1)
  have hmiddle : Edit.patch source ((node.constructs.flatMap fun child => own child .on) ++
      node.constructs.flatMap (wrapping doc)) (doc.first first) (doc.past last) =
      Piece.splice source (doc.first first) (doc.past last) (doc.pieces
        (fun child => renderDeclarator child (renderScope doc source child false .on))
        node.constructs) := by
    apply hover.patch_eq hinner source
    intro child hc
    have hpatch := (hplanned child hc).patch
    rw [(hplanned child hc).extra_eq_nil rfl, List.append_nil, h.deep] at hpatch
    rw [patch_wrapping (hinner.mem hc).1, hpatch]
  have hownWithin : Edit.AllWithin (doc.first first) (doc.past last)
      (node.constructs.flatMap fun child => own child .on) :=
    fun edit he => hover.allWithin hinner edit (List.mem_append_left _ he)
  have hwrapWithin : Edit.AllWithin (doc.first first) (doc.past last)
      (node.constructs.flatMap (wrapping doc)) :=
    fun edit he => hover.allWithin hinner edit (List.mem_append_right _ he)
  constructor
  · have hend : Edit.AllWithin (doc.first first) (doc.past last)
        [.insertAfter (doc.past last) (.plain [')'])] := by
      apply Edit.allWithin_singleton
      simp only [Edit.Within]
      omega
    have hstart : doc.InNode node
        [.replace (doc.first node) (doc.first first) (.plain "void (".toList)] := by
      apply Edit.allWithin_singleton
      simp only [Edit.Within]
      omega
    have hlo := Nat.le_of_lt hkeyword
    exact (hownWithin.mono hlo hlastPast).append
      (hstart.append ((hwrapWithin.append hend).mono hlo hlastPast))
  · rw [reframing, Edit.patch_framed source hkeyword hltLast hlastPast hownWithin hwrapWithin,
      source.inPlace_eq hkeyword, hmiddle, renderMoved, hfirst, hlast]
    simp only [parts_eq, SyntaxTree.constructs]
    rfl

theorem runs_visitDeclaration (hordered : doc.Ordered node) (hdeclaration : node.IsDeclaration)
    {top moves : Bool} (hmoves : (doc.keyword node == "var".toList || top) = moves)
    {children : List Walked} {inner frame : List Edit}
    (hwalk : (NotebookCell.walkAll children).Plans moves inner)
    (hframe : (if moves then planDeclaration doc node else pure ()).Plans false frame) :
    (visitDeclaration doc node top children).Plans false (inner ++ frame) := by
  have hend : (do setQualifying false; if moves then planDeclaration doc node : Planner Unit).Runs
      moves () ([] ++ frame) false := Runs.bind (runs_setQualifying moves false) hframe
  have hmiddle : (do
      setQualifying moves
      NotebookCell.walkAll children
      setQualifying false
      if moves then planDeclaration doc node : Planner Unit).Runs
      false () ([] ++ (inner ++ ([] ++ frame))) false :=
    Runs.bind (runs_setQualifying false moves) (Runs.bind hwalk hend)
  have hall : (visitDeclaration doc node top children).Plans false
      ([] ++ ([] ++ (inner ++ ([] ++ frame)))) := by
    subst hmoves
    exact Runs.bind (runs_declarationKind hordered hdeclaration false) hmiddle
  exact hall

theorem declaration (h : Ready doc source body node mode own extra)
    (hk : node.kind = "lexical_declaration" ∨ node.kind = "variable_declaration") :
    ∃ o e, Planned doc source body node parent mode o e := by
  have hscope : node.kind ∉ scopeKinds := by rcases hk with hk | hk <;> rw [hk] <;> decide
  have hbinding : node.kind ∉ bindingKinds := by rcases hk with hk | hk <;> rw [hk] <;> decide
  have hstatement : node.kind ∈ statementKinds := by rcases hk with hk | hk <;> rw [hk] <;> decide
  have hdeclaration := h.shaped.declaration hk
  have hoff : mode = .off := h.mode_off hstatement hscope
  subst hoff
  have hrender : renderScope doc source node (parent.sameNode body) .off =
      if doc.keyword node == "var".toList || parent.sameNode body then
        renderMoved doc source node
          (node.children.map fun child => (child, renderScope doc source child))
      else rendered doc source node .off := render_declaration hk
  cases hmoves : doc.keyword node == "var".toList || parent.sameNode body with
  | true =>
    cases hfirst : node.constructs.head? with
    | none => exact absurd (List.head?_eq_none_iff.mp hfirst) hdeclaration.2.2.1
    | some first =>
      cases hlast : node.constructs.getLast? with
      | none => exact absurd (List.getLast?_eq_none_iff.mp hlast) hdeclaration.2.2.1
      | some last =>
        obtain ⟨hwithin, hpatch⟩ := h.patch_reframing hdeclaration hfirst hlast
        have hwalk : (NotebookCell.walkAll (walked doc body node)).Plans true
            (node.constructs.flatMap fun child => own child .on) :=
          h.below.walkAll (fun child hc => Or.inr (hdeclaration.2.2.2 child hc).2) fun _ _ => rfl
        have hframe := runs_planDeclaration h.covers h.shaped.ordered hdeclaration hfirst hlast false
        rw [hmoves, if_pos rfl] at hrender
        refine ⟨_, [], ?_, extra_quiet hbinding .off, hwithin, Edit.allWithin_nil _ _, ?_⟩
        · rw [visit_declaration hk]
          exact runs_visitDeclaration h.shaped.ordered hdeclaration hmoves hwalk hframe
        · rw [List.append_nil, hpatch, hrender]
  | false =>
    have hdeclarator : node.kind ≠ "variable_declarator" := by
      rcases hk with hk | hk <;> rw [hk] <;> decide
    have hassign : node.kind ≠ "assignment_pattern" := by
      rcases hk with hk | hk <;> rw [hk] <;> decide
    have hobject : node.kind ≠ "object_assignment_pattern" := by
      rcases hk with hk | hk <;> rw [hk] <;> decide
    have hwalk := h.walkAll hscope hdeclarator hassign hobject
    have hpatch := h.patch_all hscope hdeclarator hassign hobject
    have hnone : allOf node .off extra = [] :=
      h.extra_nil hscope fun child _ => childMode_off node child
    rw [hnone, List.append_nil] at hpatch
    rw [hmoves, if_neg Bool.false_ne_true] at hrender
    refine ⟨_, [], ?_, extra_quiet hbinding .off, h.own_within hscope, Edit.allWithin_nil _ _, ?_⟩
    · have hvisit := runs_visitDeclaration h.shaped.ordered hdeclaration hmoves hwalk
        (runs_pure () false)
      rw [List.append_nil] at hvisit
      rw [visit_declaration hk]
      exact hvisit
    · rw [List.append_nil, hpatch, hrender]

/-! ### Loops over items or keys -/

theorem runs_declaresVar (hordered : doc.Ordered node) (flag : Bool) :
    (declaresVar doc node).Runs flag
      ((node.child? "kind").any fun kind => doc.spelling kind == "var".toList) [] flag := by
  unfold declaresVar
  cases hkind : node.child? "kind" with
  | none => exact runs_pure false flag
  | some kind =>
    have hcov := (hordered.mem (SyntaxTree.mem_children_of_child? hkind)).1
    exact Runs.bind (runs_ask hcov.nodeText_eq flag) (runs_pure _ flag)

theorem constructs_eq_cons {left : SyntaxTree} {lo hi : Nat} (hrow : doc.Row lo hi node.constructs)
    (hleft : left ∈ node.constructs) (hfirst : ∀ child ∈ node.constructs,
      doc.first left ≤ doc.first child) :
    ∃ others, node.constructs = left :: others ∧ doc.Row (doc.past left) hi others := by
  cases hconstructs : node.constructs with
  | nil =>
    rw [hconstructs] at hleft
    cases hleft
  | cons head others =>
    rw [hconstructs] at hrow hleft hfirst
    obtain ⟨⟨_, _, hlt⟩, hlo, hrest⟩ := hrow
    rcases List.mem_cons.mp hleft with rfl | hin
    · exact ⟨others, rfl, hrest⟩
    · have hbefore := hfirst head List.mem_cons_self
      have hafter := (hrest.mem hin).2.1
      omega

theorem filter_not_sameNode {left : SyntaxTree} {others : List SyntaxTree} {hi : Nat}
    (hconstructs : node.constructs = left :: others) (hcov : doc.Covers left)
    (hrow : doc.Row (doc.past left) hi others) :
    node.constructs.filter (fun child => !child.sameNode left) = others := by
  simp only [hconstructs, List.filter_cons, SyntaxTree.sameNode_self, Bool.not_true, Bool.false_eq_true,
    if_false]
  rw [List.filter_eq_self]
  intro child hc
  have hafter := (hrow.mem hc).2.1
  have hlt := hcov.2.2
  have hapart : doc.first child ≠ doc.first left := by omega
  rw [Document.sameNode_eq_false hapart]
  rfl

theorem walkAll_others {left : SyntaxTree} {others : List SyntaxTree} {hi : Nat}
    (hconstructs : node.constructs = left :: others) (hcov : doc.Covers left)
    (hrow : doc.Row (doc.past left) hi others) :
    NotebookCell.walkAll ((walked doc body node).filter fun child => !child.1.sameNode left) =
      others.forM fun child => child.fold (visitScope doc body) node := by
  have hothers := filter_not_sameNode hconstructs hcov hrow
  have hmap : ((walked doc body node).filter fun child => !child.1.sameNode left) =
      (node.children.filter fun child => !child.sameNode left).map
        fun child => (child, child.fold (visitScope doc body) node) := by
    rw [walked, List.filter_map]
    rfl
  have hswap : (node.children.filter fun child => !child.sameNode left).filter
      SyntaxTree.isConstruct = others := by
    rw [← hothers, SyntaxTree.constructs, List.filter_filter, List.filter_filter]
    apply List.filter_congr
    intro child _
    exact Bool.and_comm _ _
  rw [hmap, walkAll_map, hswap]

/-- The mode of a construct of a loop whose head declares by `var`. -/
def loopMode (left child : SyntaxTree) : NameMode := if child.sameNode left then .bound else .off

theorem loop_var (h : Ready doc source body node .off own extra)
    (hk : node.kind = "for_in_statement") {kind left : SyntaxTree}
    (hkind : node.child? "kind" = some kind) (hspelled : doc.spelling kind = "var".toList)
    (hdeclares : (declaresVar doc node).Runs false true [] false)
    (hleft : node.child? "left" = some left) (hconstruct : left.isConstruct = true)
    (htarget : left.isTarget = true) (hexposes : left.exposes = false)
    (hbefore : doc.past kind ≤ doc.first left)
    (hleftmost : ∀ child ∈ node.constructs, doc.first left ≤ doc.first child) :
    ∃ o e, Planned doc source body node parent .off o e := by
  have hbinding : node.kind ∉ bindingKinds := by rw [hk]; decide
  have hmem := SyntaxTree.mem_children_of_child? hleft
  have hin : left ∈ node.constructs := List.mem_filter.mpr ⟨hmem, hconstruct⟩
  obtain ⟨hcovKind, hloKind, _⟩ := h.shaped.ordered.mem (SyntaxTree.mem_children_of_child? hkind)
  obtain ⟨hcovLeft, _, _⟩ := h.row.mem hin
  obtain ⟨others, hconstructs, hrowOthers⟩ := constructs_eq_cons h.row hin hleftmost
  have hrow : doc.Row (doc.first left) (doc.past node) node.constructs := by
    rw [hconstructs]
    exact ⟨hcovLeft, Nat.le_refl _, hrowOthers⟩
  have hmodeLeft : loopMode left left = .bound := by
    rw [loopMode, SyntaxTree.sameNode_self, if_pos rfl]
  have hmodeOther : ∀ child ∈ others, loopMode left child = .off := by
    intro child hc
    have hafter := (hrowOthers.mem hc).2.1
    have hlt := hcovLeft.2.2
    have hapart : doc.first child ≠ doc.first left := by omega
    rw [loopMode, Document.sameNode_eq_false hapart, if_neg Bool.false_ne_true]
  have hallowed : ∀ child ∈ node.constructs, loopMode left child = .off ∨ child.exposes = false := by
    intro child hc
    rw [hconstructs] at hc
    rcases List.mem_cons.mp hc with rfl | hc
    · exact Or.inr hexposes
    · exact Or.inl (hmodeOther child hc)
  have hplanned := fun child (hc : child ∈ node.constructs) =>
    h.below child (SyntaxTree.mem_children_of_mem_constructs hc) _ (hallowed child hc)
  -- behind the cut, the edits are those of the constructs, one construct after the other
  have hedits : (node.constructs.flatMap fun child =>
        own child (loopMode left child) ++ extra child (loopMode left child)) =
      own left .bound ++ (extra left .bound ++ others.flatMap fun child => own child .off) := by
    rw [hconstructs, List.flatMap_cons, hmodeLeft, List.append_assoc]
    have hothers : (others.flatMap fun child =>
          own child (loopMode left child) ++ extra child (loopMode left child)) =
        others.flatMap fun child => own child .off := by
      apply List.flatMap_congr
      intro child hc
      have hnone := hplanned child (by rw [hconstructs]; exact List.mem_cons_of_mem left hc)
      rw [hmodeOther child hc] at hnone ⊢
      rw [hnone.extra_eq_nil rfl, List.append_nil]
    rw [hothers]
  have hover := Document.over_flatMap hrow fun child hc =>
    (hplanned child hc).own_within.append (hplanned child hc).extra_within
  have hinside := hover.allWithin hrow
  have hpatch := h.below.patch_eq h.deep hrow
    (fun _ => SyntaxTree.mem_children_of_mem_constructs) hallowed hover
  rw [hedits] at hpatch hinside
  have hlt := hcovKind.2.2
  have hltLeft := hcovLeft.2.2
  have hleftPast := (h.row.mem hin).2.2
  have hcutWithin : doc.InNode node [.replace (doc.first kind) (doc.first left) (.plain [])] := by
    apply Edit.allWithin_singleton
    simp only [Edit.Within]
    omega
  have hwithin : doc.InNode node (.replace (doc.first kind) (doc.first left) (.plain []) ::
      (own left .bound ++ (extra left .bound ++ others.flatMap fun child => own child .off))) :=
    hcutWithin.append (hinside.mono (by omega) (Nat.le_refl _))
  refine ⟨_, [], ?_, extra_quiet hbinding .off, hwithin, Edit.allWithin_nil _ _, ?_⟩
  · have hplannedLeft := h.below left hmem .bound (Or.inr hexposes)
    have hasked := hplannedLeft.asked true
    have hwalkLeft := hplannedLeft.walk
    rw [NameMode.extra, planQualified_of_isTarget htarget] at hasked
    rw [← walkField_walked hleft] at hwalkLeft
    have hwalkOthers : (NotebookCell.walkAll
        ((walked doc body node).filter fun child => !child.1.sameNode left)).Plans false
        (others.flatMap fun child => own child .off) := by
      rw [walkAll_others hconstructs hcovLeft hrowOthers]
      apply runs_forM
      intro child hc
      have hin : child ∈ node.constructs := by
        rw [hconstructs]
        exact List.mem_cons_of_mem left hc
      exact (h.below child (SyntaxTree.mem_children_of_mem_constructs hin) .off (Or.inl rfl)).walk
    have hend : (do
        setQualifying false
        NotebookCell.walkAll ((walked doc body node).filter fun child =>
          !child.1.sameNode left)).Runs true ()
        ([] ++ others.flatMap fun child => own child .off) false :=
      Runs.bind (runs_setQualifying true false) hwalkOthers
    have hmoved : (do
        if left.kind == "identifier" then before doc left namespaceDot
        setQualifying false
        NotebookCell.walkAll ((walked doc body node).filter fun child =>
          !child.1.sameNode left)).Runs true ()
        (extra left .bound ++ ([] ++ others.flatMap fun child => own child .off)) false := by
      cases hid : left.kind == "identifier" with
      | true =>
        rw [hid, if_pos rfl] at hasked
        exact Plans.seq hasked hend
      | false =>
        rw [hid, if_neg Bool.false_ne_true] at hasked
        rw [hasked.unique (runs_pure () true)]
        exact hend
    have hall : (visitForIn doc node (walked doc body node)).Plans false
        ([] ++ ([] ++ ([] ++ ([] ++ ([] ++ ([.replace (doc.first kind) (doc.first left) (.plain [])] ++
          ([] ++ (own left .bound ++ (extra left .bound ++
            ([] ++ others.flatMap fun child => own child .off)))))))))) :=
      Runs.bind hdeclares (Runs.bind (runs_need hkind false) (Runs.bind
        (runs_ask hcovKind.start_eq false) (Runs.bind (runs_need hleft false) (Runs.bind
          (runs_ask hcovLeft.start_eq false) (Plans.seq (runs_between _ _ [] false) (Runs.bind
            (runs_setQualifying false true) (Plans.seq hwalkLeft hmoved)))))))
    rw [visit_forIn hk]
    exact hall
  · have hvar : (node.child? "kind").any (fun kind => doc.spelling kind == "var".toList) = true := by
      rw [hkind, Option.any_some, hspelled]
      rfl
    rw [List.append_nil, Edit.patch_cut source hloKind (by omega) (by omega) hinside, hpatch,
      render_loop hk hvar, renderLoop, hkind, hleft]
    simp only [parts_eq, SyntaxTree.constructs]
    rfl

theorem loop (h : Ready doc source body node mode own extra) (hk : node.kind = "for_in_statement") :
    ∃ o e, Planned doc source body node parent mode o e := by
  have hscope : node.kind ∉ scopeKinds := by rw [hk]; decide
  have hbinding : node.kind ∉ bindingKinds := by rw [hk]; decide
  have hoff : mode = .off := h.mode_off (by rw [hk]; decide) hscope
  subst hoff
  have hdeclares := runs_declaresVar h.shaped.ordered false
  cases hvar : (node.child? "kind").any fun kind => doc.spelling kind == "var".toList with
  | false =>
    have hwalk := h.walkAll hscope (by rw [hk]; decide) (by rw [hk]; decide) (by rw [hk]; decide)
    have hpatch := h.patch_all hscope (by rw [hk]; decide) (by rw [hk]; decide) (by rw [hk]; decide)
    have hnone : allOf node .off extra = [] :=
      h.extra_nil hscope fun child _ => childMode_off node child
    rw [hnone, List.append_nil] at hpatch
    rw [hvar] at hdeclares
    refine ⟨_, [], ?_, extra_quiet hbinding .off, h.own_within hscope, Edit.allWithin_nil _ _, ?_⟩
    · have hall : (visitForIn doc node (walked doc body node)).Plans false
          ([] ++ allOf node .off own) := Runs.bind hdeclares hwalk
      rw [visit_forIn hk]
      exact hall
    · rw [List.append_nil, hpatch, render_loop_other hk hvar]
  | true =>
    rw [hvar] at hdeclares
    obtain ⟨kind, hkind, hspelled⟩ := (Option.any_eq_true _ _).mp hvar
    have hspelled' : doc.spelling kind = "var".toList := beq_iff_eq.mp hspelled
    obtain ⟨hsome, hall⟩ := h.shaped.forIn hk kind hkind hspelled'
    obtain ⟨left, hleft⟩ := Option.isSome_iff_exists.mp hsome
    obtain ⟨hconstruct, htarget, hexposes, hbefore, hleftmost⟩ := hall left hleft
    exact h.loop_var hk hkind hspelled' hdeclares hleft hconstruct htarget hexposes hbefore hleftmost

end Ready

end NotebookCell
