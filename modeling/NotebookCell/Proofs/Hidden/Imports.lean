import NotebookCell.Proofs.Hidden.Steps
import NotebookCell.Proofs.Import.Clauses

/-!
# The import pass sees no hidden nodes

The walk for imports reads no text at all. What it replaces lies between ends of nodes that are seen
or hidden.
-/

namespace NotebookCell

open Planner

/-- The place is where a node that is seen or hidden begins or ends. -/
def Document.IsEnd (doc : Document) (body : SyntaxTree) (place : Nat) : Prop :=
  ∃ node, (node ∈ body.seen ∨ node ∈ body.hidden) ∧ (place = doc.first node ∨ place = doc.past node)

/-- The property holds of all edits that the import pass can plan below a body. -/
structure ImportPermits (doc : Document) (body : SyntaxTree) (P : Edit → Prop) : Prop
    extends InsertPermits doc body P where
  replace : ∀ lo hi, doc.IsEnd body lo → doc.IsEnd body hi → ∀ text, P (.replace lo hi (.plain text))

variable {doc view : Document} {body node image : SyntaxTree} {P : Edit → Prop}

theorem Shows.isEnd_first (hs : Shows doc body node image) : doc.IsEnd body (doc.first node) :=
  ⟨node, hs.shown, Or.inl rfl⟩

theorem Shows.isEnd_past (hs : Shows doc body node image) : doc.IsEnd body (doc.past node) :=
  ⟨node, hs.shown, Or.inr rfl⟩

/-! ### Bindings -/

/-- What a view has of a node in a place where only nodes of some kinds are hidden. -/
def SyntaxTree.face (doc : Document) (node : SyntaxTree) : SyntaxTree :=
  if scopeKinds.contains node.kind then doc.bare node else node.outline doc

theorem imageOf_eq_face (hk : node.kind ∉ functionDeclarationKinds) (child : SyntaxTree) :
    node.imageOf doc child = child.face doc := by
  simp only [SyntaxTree.imageOf, SyntaxTree.face, SyntaxTree.hides, List.contains_eq_mem, hk,
    decide_false, Bool.false_and, Bool.or_false]

theorem face_eq_outline (hk : node.kind ∉ scopeKinds) : node.face doc = node.outline doc := by
  rw [SyntaxTree.face, List.contains_eq_mem, decide_eq_false hk, if_neg Bool.false_ne_true]

theorem constructs_outline (hk : node.kind ∉ functionDeclarationKinds) :
    (node.outline doc).constructs = node.constructs.map (SyntaxTree.face doc) := by
  rw [(SyntaxTree.isImage_outline doc node).constructs_eq]
  exact List.map_congr_left fun child _ => imageOf_eq_face hk child

theorem shows_face (hn : node ∈ body.seen) (hk : node.kind ∉ functionDeclarationKinds)
    {child : SyntaxTree} (hc : child ∈ node.children) : Shows doc body child (child.face doc) := by
  rw [← imageOf_eq_face hk]
  exact shows_child hn hk hc

theorem kind_face (node : SyntaxTree) : (node.face doc).kind = node.kind := by
  unfold SyntaxTree.face
  split
  · rfl
  · exact (SyntaxTree.isImage_outline doc node).kind_eq

theorem filter_kind_face (nodes : List SyntaxTree) (kind : String) :
    ((nodes.map (SyntaxTree.face doc)).filter fun child => child.kind == kind) =
      (nodes.filter fun child => child.kind == kind).map (SyntaxTree.face doc) := by
  rw [List.filter_map]
  exact congrArg _ (List.filter_congr fun child _ => congrArg (· == kind) (kind_face child))

theorem bindingsOfClauseItem_face (item : SyntaxTree) :
    bindingsOfClauseItem (item.face doc) =
      (bindingsOfClauseItem item).map (SyntaxTree.face doc) := by
  by_cases hk : item.kind = "named_imports"
  · rw [bindingsOfClauseItem_list (by rw [kind_face]; exact hk), bindingsOfClauseItem_list hk,
      face_eq_outline (by rw [hk]; decide), constructs_outline (by rw [hk]; decide), filter_kind_face]
  · rw [bindingsOfClauseItem_single (by rw [kind_face]; exact hk), bindingsOfClauseItem_single hk]
    rfl

theorem importBindings_outline (hk : node.kind = "import_statement") :
    importBindings (node.outline doc) = (importBindings node).map (SyntaxTree.face doc) := by
  unfold importBindings
  rw [constructs_outline (by rw [hk]; decide), filter_kind_face, List.flatMap_map, List.map_flatMap]
  apply List.flatMap_congr
  intro clause hc
  have hkind := beq_iff_eq.mp (List.mem_filter.mp hc).2
  rw [face_eq_outline (by rw [hkind]; decide), constructs_outline (by rw [hkind]; decide),
    List.flatMap_map, List.map_flatMap]
  exact List.flatMap_congr fun item _ => bindingsOfClauseItem_face item

theorem shows_binding (hn : node ∈ body.seen) (hk : node.kind = "import_statement")
    {binding : SyntaxTree} (hb : binding ∈ importBindings node) :
    Shows doc body binding (binding.face doc) := by
  obtain ⟨clause, hc, hb⟩ := List.mem_flatMap.mp hb
  obtain ⟨hc, hkClause⟩ := List.mem_filter.mp hc
  have hclause := beq_iff_eq.mp hkClause
  have hs : Shows doc body clause (clause.face doc) :=
    shows_face hn (by rw [hk]; decide) (SyntaxTree.mem_children_of_mem_constructs hc)
  obtain ⟨item, hi, hb⟩ := List.mem_flatMap.mp hb
  have hitem : Shows doc body item (item.face doc) :=
    shows_face (hs.of_kind (by rw [hclause]; decide)).1 (by rw [hclause]; decide)
      (SyntaxTree.mem_children_of_mem_constructs hi)
  by_cases hkItem : item.kind = "named_imports"
  · rw [bindingsOfClauseItem_list hkItem] at hb
    exact shows_face (hitem.of_kind (by rw [hkItem]; decide)).1 (by rw [hkItem]; decide)
      (SyntaxTree.mem_children_of_mem_constructs (List.mem_filter.mp hb).1)
  · rw [bindingsOfClauseItem_single hkItem] at hb
    rw [List.mem_singleton.mp hb]
    exact hitem

/-! ### What an import plans -/

section Plans

variable (h : IsView doc body view) (hP : ImportPermits doc body P)

include h

theorem mirrors_importSpecifierOf (hn : node ∈ body.seen) (hk : node.kind = "import_statement") :
    Mirrors P (Option.Rel (Shows doc body)) (importSpecifierOf doc node)
      (importSpecifierOf view (node.outline doc)) := by
  have himage := SyntaxTree.isImage_outline doc node
  have hshown : ∀ child ∈ node.children, Shows doc body child (node.imageOf doc child) :=
    fun child hc => shows_child hn (by rw [hk]; decide) hc
  unfold importSpecifierOf
  rw [himage.child?_eq, himage.find?_kind]
  cases hsource : node.child? "source" with
  | some source =>
    exact mirrors_pure (.some (hshown source (SyntaxTree.mem_children_of_child? hsource)))
  | none =>
    cases hclause : node.constructs.find? fun child => child.kind == "from_clause" with
    | some clause =>
      have hfound := List.find?_some hclause
      have hkClause : clause.kind = "from_clause" := beq_iff_eq.mp hfound
      obtain ⟨hseen, hsame⟩ := (hshown clause (SyntaxTree.mem_children_of_mem_constructs
        (List.mem_of_find?_eq_some hclause))).of_kind (by rw [hkClause]; decide)
      rw [Option.map_some, Option.map_none, hsame]
      simp only [(SyntaxTree.isImage_outline doc clause).child?_eq]
      cases hsource : clause.child? "source" with
      | some source =>
        exact mirrors_pure (.some (shows_child hseen (by rw [hkClause]; decide)
          (SyntaxTree.mem_children_of_child? hsource)))
      | none => exact mirrors_pure .none
    | none =>
      obtain ⟨hstart, hstart'⟩ := h.start_eq (.seen hn)
      refine (mirrors_ask hstart hstart' rfl).bind fun offset _ hsame => ?_
      cases hsame
      exact mirrors_throw _

omit h in
theorem mirrors_needSpecifier {found found' : Option SyntaxTree}
    (hfound : Option.Rel (Shows doc body) found found') :
    Mirrors P (Shows doc body) (needSpecifier found) (needSpecifier found') := by
  cases hfound with
  | some hsource => exact mirrors_pure hsource
  | none => exact mirrors_throw _

include hP

theorem mirrors_joinBindings {current : SyntaxTree} {rest : List SyntaxTree}
    (hcurrent : Shows doc body current (current.face doc))
    (hrest : ∀ binding ∈ rest, Shows doc body binding (binding.face doc)) :
    Mirrors P (Shows doc body) (joinBindings doc current rest)
      (joinBindings view (current.face doc) (rest.map (SyntaxTree.face doc))) := by
  induction rest generalizing current with
  | nil => exact mirrors_pure hcurrent
  | cons binding rest ih =>
    have hbinding := hrest binding List.mem_cons_self
    obtain ⟨hstop, hstop'⟩ := h.stop_eq hcurrent
    obtain ⟨hstart, hstart'⟩ := h.start_eq hbinding
    exact Mirrors.replace_then hstop hstop' hstart hstart'
      (hP.replace _ _ hcurrent.isEnd_past hbinding.isEnd_first _)
      (ih hbinding fun b hb => hrest b (List.mem_cons_of_mem binding hb))

theorem mirrors_planImportStatement (hn : node ∈ body.seen) (hk : node.kind = "import_statement") :
    Mirrors P Eq (planImportStatement doc node) (planImportStatement view (node.outline doc)) := by
  have hself : Shows doc body node (node.outline doc) := .seen hn
  obtain ⟨hstart, hstart'⟩ := h.start_eq hself
  obtain ⟨hstop, hstop'⟩ := h.stop_eq hself
  have hall : ∀ binding ∈ importBindings node, Shows doc body binding (binding.face doc) :=
    fun binding hb => shows_binding hn hk hb
  refine (mirrors_importSpecifierOf h hn hk).bind fun found foundImage hfound => ?_
  -- From the place where the specifier is needed, both kinds of import go on alike.
  have hclose : ∀ {place : Nat} (opening closing : List Char), doc.IsEnd body place →
      Mirrors P Eq
        (do let source ← needSpecifier found
            between place (← ask (doc.start source)) opening
            between (← ask (doc.stop source)) (← ask (doc.stop node)) closing)
        (do let source ← needSpecifier foundImage
            between place (← ask (view.start source)) opening
            between (← ask (view.stop source)) (← ask (view.stop (node.outline doc))) closing) := by
    intro place opening closing hplace
    refine (mirrors_needSpecifier hfound).bind fun source sourceImage hsource => ?_
    obtain ⟨hfirst, hfirst'⟩ := h.start_eq hsource
    obtain ⟨hpast, hpast'⟩ := h.stop_eq hsource
    exact Mirrors.replace_then rfl rfl hfirst hfirst' (hP.replace _ _ hplace hsource.isEnd_first _)
      (mirrors_between hpast hpast' hstop hstop' (hP.replace _ _ hsource.isEnd_past hself.isEnd_past _))
  rw [importBindings_outline hk]
  cases hbindings : importBindings node with
  | nil =>
    refine (mirrors_ask (R := fun a b => a = b ∧ doc.IsEnd body a) hstart hstart'
      ⟨rfl, hself.isEnd_first⟩).bind ?_
    rintro place _ ⟨rfl, hplace⟩
    exact hclose _ _ hplace
  | cons first rest =>
    rw [hbindings] at hall
    have hsFirst := hall first List.mem_cons_self
    obtain ⟨hat, hat'⟩ := h.start_eq hsFirst
    refine Mirrors.replace_then hstart hstart' hat hat'
      (hP.replace _ _ hself.isEnd_first hsFirst.isEnd_first _) ?_
    refine (mirrors_joinBindings h hP hsFirst fun b hb => hall b (List.mem_cons_of_mem first hb)).bind
      fun last lastImage hlast => ?_
    obtain ⟨hend, hend'⟩ := h.stop_eq hlast
    refine (mirrors_ask (R := fun a b => a = b ∧ doc.IsEnd body a) hend hend'
      ⟨rfl, hlast.isEnd_past⟩).bind ?_
    rintro place _ ⟨rfl, hplace⟩
    exact hclose _ _ hplace

theorem mirrors_planDefaultBindings (hn : node ∈ body.seen) (hk : node.kind = "import_clause") :
    Mirrors P Eq (planDefaultBindings doc node) (planDefaultBindings view (node.outline doc)) := by
  unfold planDefaultBindings
  rw [(SyntaxTree.isImage_outline doc node).filter_kind]
  refine Mirrors.forM fun child hc => ?_
  have hs : Shows doc body child (node.imageOf doc child) := shows_child hn (by rw [hk]; decide)
    (SyntaxTree.mem_children_of_mem_constructs (List.mem_filter.mp hc).1)
  exact (mirrors_before h hP.toInsertPermits hs _).seq (mirrors_after h hP.toInsertPermits hs _)

theorem mirrors_planNamedBinding (hn : node ∈ body.seen) (hk : node.kind = "import_specifier") :
    Mirrors P Eq (planNamedBinding doc node) (planNamedBinding view (node.outline doc)) := by
  have hshown : ∀ child ∈ node.children, Shows doc body child (node.imageOf doc child) :=
    fun child hc => shows_child hn (by rw [hk]; decide) hc
  have hclose : Mirrors P Eq (after doc node ['}']) (after view (node.outline doc) ['}']) :=
    mirrors_after h hP.toInsertPermits (.seen hn) _
  refine (mirrors_before h hP.toInsertPermits (.seen hn) _).seq ?_
  rw [(SyntaxTree.isImage_outline doc node).child?_eq]
  cases halias : node.child? "alias" with
  | none => exact hclose
  | some localName =>
    have hlocal := hshown localName (SyntaxTree.mem_children_of_child? halias)
    obtain ⟨hstart, hstart'⟩ := h.start_eq hlocal
    refine (mirrors_need (R := Shows doc body) "name" fun name hname =>
      hshown name (SyntaxTree.mem_children_of_child? hname)).bind fun name nameImage hname => ?_
    obtain ⟨hstop, hstop'⟩ := h.stop_eq hname
    exact Mirrors.replace_then hstop hstop' hstart hstart'
      (hP.replace _ _ hname.isEnd_past hlocal.isEnd_first _) hclose

theorem mirrors_planNamespaceBinding (hn : node ∈ body.seen) (hk : node.kind = "namespace_import") :
    Mirrors P Eq (planNamespaceBinding doc node) (planNamespaceBinding view (node.outline doc)) := by
  have himage := SyntaxTree.isImage_outline doc node
  have hself : Shows doc body node (node.outline doc) := .seen hn
  obtain ⟨hstart, hstart'⟩ := h.start_eq hself
  unfold planNamespaceBinding
  rw [himage.constructs_eq, himage.kind_eq, List.getLast?_map]
  cases hlast : node.constructs.getLast? with
  | none => exact mirrors_throw _
  | some localName =>
    have hlocal : Shows doc body localName (node.imageOf doc localName) :=
      shows_child hn (by rw [hk]; decide) (SyntaxTree.mem_children_of_mem_constructs (List.mem_of_getLast? hlast))
    obtain ⟨hat, hat'⟩ := h.start_eq hlocal
    exact mirrors_between hstart hstart' hat hat'
      (hP.replace _ _ hself.isEnd_first hlocal.isEnd_first _)

/-! ### The whole walk -/

theorem mirrors_visitImports (hn : node ∈ body.seen) :
    Mirrors P Eq (node.fold (visitImports doc)) ((node.outline doc).fold (visitImports view)) := by
  induction node using SyntaxTree.induction with
  | node info children ih =>
    have himage := SyntaxTree.isImage_outline doc (.node info children)
    have hkind := himage.kind_eq
    have hwalk : (SyntaxTree.node info children).kind ∉ functionDeclarationKinds →
        Mirrors P Eq
          ((SyntaxTree.node info children).constructs.forM fun child => child.fold (visitImports doc))
          (((SyntaxTree.node info children).outline doc).constructs.forM fun child =>
            child.fold (visitImports view)) := by
      intro hk
      rw [himage.constructs_eq]
      refine Mirrors.forM fun child hc => ?_
      have hin := SyntaxTree.mem_children_of_mem_constructs hc
      have hs : Shows doc body child ((SyntaxTree.node info children).imageOf doc child) :=
        shows_child hn hk hin
      generalize (SyntaxTree.node info children).imageOf doc child = childImage at hs
      cases hs with
      | seen hseen => exact ih child hin hseen
      | hidden hhidden hscope =>
        rw [walk_scope hscope, walk_scope (by exact hscope)]
        exact mirrors_pure rfl
    by_cases hk : (SyntaxTree.node info children).kind ∈ importKinds
    · simp only [importKinds, List.mem_cons, List.not_mem_nil, or_false] at hk
      rcases hk with hk | hk | hk | hk
      · rw [walk_statement hk, walk_statement (hkind.trans hk)]
        exact (mirrors_planImportStatement h hP hn hk).seq (hwalk (by rw [hk]; decide))
      · rw [walk_clause hk, walk_clause (hkind.trans hk)]
        exact (mirrors_planDefaultBindings h hP hn hk).seq (hwalk (by rw [hk]; decide))
      · rw [walk_named hk, walk_named (hkind.trans hk)]
        exact mirrors_planNamedBinding h hP hn hk
      · rw [walk_starred hk, walk_starred (hkind.trans hk)]
        exact mirrors_planNamespaceBinding h hP hn hk
    · rw [walk_other hk, walk_other (hkind ▸ hk)]
      refine Mirrors.ite (by rw [hkind]) (fun _ => mirrors_pure rfl) fun hno => hwalk fun hin => hno ?_
      rw [List.contains_eq_mem, decide_eq_true hin, Bool.true_or]

theorem mirrors_planImports :
    Mirrors P Eq (planImports doc body) (planImports view (body.outline doc)) :=
  mirrors_visitImports h hP (SyntaxTree.mem_seen_self body)

end Plans

end NotebookCell
