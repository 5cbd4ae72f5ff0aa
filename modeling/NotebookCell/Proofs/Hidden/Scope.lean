import NotebookCell.Proofs.Hidden.Steps
import NotebookCell.Proofs.Scope.Walk

/-!
# The scope pass sees no hidden nodes

Kind by kind, the walk plans the same in a document and in a view of it. Which edits it plans is told
to a property `P` on the way: insertions at the ends of nodes that are seen or hidden, and two kinds
of replacements.
-/

namespace NotebookCell

open Planner

/-- The property holds of all edits that the scope pass can plan below a body. -/
structure ScopePermits (doc : Document) (body : SyntaxTree) (P : Edit → Prop) : Prop
    extends InsertPermits doc body P where
  declaration : ∀ node ∈ body.seen,
    node.kind = "lexical_declaration" ∨ node.kind = "variable_declaration" →
      ∀ first, (node.constructs.filter fun child => child.kind == "variable_declarator").head? =
        some first → ∀ text, P (.replace (doc.first node) (doc.first first) (.plain text))
  loop : ∀ node ∈ body.seen, node.kind = "for_in_statement" → ∀ kind left,
    node.child? "kind" = some kind → node.child? "left" = some left →
      doc.spelling kind = "var".toList → P (.replace (doc.first kind) (doc.first left) (.plain []))

variable {doc view : Document} {body node image parent parentImage : SyntaxTree} {P : Edit → Prop}

/-! ### What patterns and declarations plan -/

section Plans

variable (h : IsView doc body view) (hP : ScopePermits doc body P)

include h hP

omit hP h in
theorem mirrors_boundTarget (hs : Shows doc body node image) :
    Mirrors P (Option.Rel (Shows doc body)) (boundTarget node) (boundTarget image) := by
  unfold boundTarget
  refine Mirrors.ite (by rw [hs.kind_eq]) (fun hk => ?_) fun _ =>
    Mirrors.ite (by rw [hs.kind_eq]) (fun hk => ?_) fun _ => mirrors_pure (.some hs)
  · have hkind := beq_iff_eq.mp hk
    obtain ⟨hn, rfl⟩ := hs.of_kind (by rw [hkind]; decide)
    rw [(SyntaxTree.isImage_outline doc node).child?_eq]
    apply mirrors_pure
    cases hleft : node.child? "left" with
    | none => exact .none
    | some left =>
      exact .some (shows_child hn (by rw [hkind]; decide) (SyntaxTree.mem_children_of_child? hleft))
  · have hkind := beq_iff_eq.mp hk
    obtain ⟨hn, rfl⟩ := hs.of_kind (by rw [hkind]; decide)
    rw [(SyntaxTree.isImage_outline doc node).firstConstruct_eq]
    refine (mirrors_ask_map (R := Shows doc body) fun part hpart => ?_).bind fun part _ hpart =>
      mirrors_pure (.some hpart)
    exact shows_child hn (by rw [hkind]; decide) (SyntaxTree.mem_children_of_mem_constructs
      (SyntaxTree.mem_constructs_of_firstConstruct hpart))

theorem mirrors_planQualified (hs : Shows doc body node image) :
    Mirrors P Eq (planQualified doc node) (planQualified view image) := by
  refine (mirrors_boundTarget hs).bind fun target target' htarget => ?_
  cases htarget with
  | none => exact mirrors_pure rfl
  | some htarget =>
    exact Mirrors.ite (by rw [htarget.kind_eq]) (fun _ => mirrors_before h hP.toInsertPermits htarget _)
      fun _ => mirrors_pure rfl

theorem mirrors_planNamed (hn : node ∈ body.seen)
    (hk : node.kind = "class_declaration" ∨ node.kind ∈ functionDeclarationKinds) :
    Mirrors P Eq (planNamed doc node) (planNamed view (node.outline doc)) := by
  have hname : Mirrors P (fun name name' => doc.nodeText name = .ok (doc.spelling name) ∧
      view.nodeText name' = .ok (doc.spelling name)) (need node "name")
        (need (node.outline doc) "name") := by
    apply mirrors_need
    intro name hname
    exact (h.token hn (SyntaxTree.mem_children_of_child? hname) ((h.legible node hn).name hk name hname)
      fun _ => List.find?_some hname).2
  refine hname.bind fun name name' htext => ?_
  refine (mirrors_ask htext.1 htext.2 rfl).bind fun text _ hsame => ?_
  cases hsame
  exact (mirrors_before h hP.toInsertPermits (.seen hn) _).seq (mirrors_after h hP.toInsertPermits (.seen hn) _)

omit hP in
theorem mirrors_declarationKind (hn : node ∈ body.seen)
    (hk : node.kind = "lexical_declaration" ∨ node.kind = "variable_declaration") :
    Mirrors P Eq (declarationKind doc node) (declarationKind view (node.outline doc)) := by
  have himage := SyntaxTree.isImage_outline doc node
  have hlegible := h.legible node hn
  have hfunction := SyntaxTree.not_function_of_declaration hk
  have hread : ∀ child ∈ node.children, child.isToken → Mirrors P Eq (ask (doc.nodeText child))
      (ask (view.nodeText (node.imageOf doc child))) := by
    intro child hc htoken
    obtain ⟨_, htext, htext'⟩ := h.token hn hc htoken fun hin => absurd hin hfunction
    exact mirrors_ask htext htext' rfl
  unfold declarationKind
  rw [himage.child?_eq, himage.children, himage.kind_eq, List.head?_map]
  cases hkind : node.child? "kind" with
  | some kind =>
    refine hread kind (SyntaxTree.mem_children_of_child? hkind) (hlegible.keyword ?_ kind hkind)
    rcases hk with hk | hk <;> rw [hk] <;> decide
  | none =>
    cases hhead : node.children.head? with
    | some token => exact hread token (List.mem_of_head? hhead) (hlegible.opening hk token hhead)
    | none => exact mirrors_throw _

theorem mirrors_planDeclarator (hn : node ∈ body.seen) :
    Mirrors P Eq (planDeclarator doc node) (planDeclarator view (node.outline doc)) := by
  have hvalue : ((node.outline doc).child? "value").isSome = (node.child? "value").isSome := by
    rw [(SyntaxTree.isImage_outline doc node).child?_eq, Option.isSome_map]
  refine (mirrors_before h hP.toInsertPermits (.seen hn) _).seq ?_
  exact Mirrors.ite (by rw [hvalue]) (fun _ => mirrors_after h hP.toInsertPermits (.seen hn) _)
    fun _ => mirrors_after h hP.toInsertPermits (.seen hn) _

theorem mirrors_planDeclaration (hn : node ∈ body.seen)
    (hk : node.kind = "lexical_declaration" ∨ node.kind = "variable_declaration") :
    Mirrors P Eq (planDeclaration doc node) (planDeclaration view (node.outline doc)) := by
  have himage := SyntaxTree.isImage_outline doc node
  have hfunction := SyntaxTree.not_function_of_declaration hk
  obtain ⟨hstart, hstart'⟩ := h.start_eq (.seen hn)
  have hdeclarator : ∀ declarator ∈ node.constructs.filter fun child =>
      child.kind == "variable_declarator", declarator ∈ body.seen ∧
        node.imageOf doc declarator = declarator.outline doc := by
    intro declarator hd
    obtain ⟨hc, hkind⟩ := List.mem_filter.mp hd
    refine (shows_child hn hfunction (SyntaxTree.mem_children_of_mem_constructs hc)).of_kind ?_
    rw [beq_iff_eq.mp hkind]
    decide
  unfold planDeclaration
  simp only [himage.filter_kind, List.head?_map, List.getLast?_map]
  cases hfirst : (node.constructs.filter fun child => child.kind == "variable_declarator").head? with
  | none =>
    refine (mirrors_ask hstart hstart' rfl).bind fun _ _ _ => ?_
    rw [himage.kind_eq]
    exact mirrors_throw _
  | some first =>
    cases hlast : (node.constructs.filter fun child => child.kind == "variable_declarator").getLast? with
    | none =>
      refine (mirrors_ask hstart hstart' rfl).bind fun _ _ _ => ?_
      rw [himage.kind_eq]
      exact mirrors_throw _
    | some last =>
      obtain ⟨hseenFirst, himageFirst⟩ := hdeclarator first (List.mem_of_head? hfirst)
      obtain ⟨hseenLast, himageLast⟩ := hdeclarator last (List.mem_of_getLast? hlast)
      obtain ⟨hstop, hstop'⟩ := h.start_eq (.seen hseenFirst)
      simp only [Option.map_some, himageFirst, himageLast]
      refine Mirrors.replace_then hstart hstart' hstop hstop'
        (hP.declaration node hn hk first hfirst _) ?_
      refine Mirrors.seq (Mirrors.forM fun declarator hd => ?_)
        (mirrors_after h hP.toInsertPermits (.seen hseenLast) _)
      obtain ⟨hseen, hsame⟩ := hdeclarator declarator hd
      rw [hsame]
      exact mirrors_planDeclarator h hP hseen

theorem mirrors_planProperty (hs : Shows doc body node image) :
    Mirrors P Eq (planProperty doc node) (planProperty view image) := by
  have hchild : ∀ {part partImage}, Shows doc body part partImage → part.kind ∉ scopeKinds →
      part.kind ∉ functionDeclarationKinds → ∀ field,
        Mirrors P (Shows doc body) (need part field) (need partImage field) := by
    intro part partImage hpart hscope hfunction field
    obtain ⟨hn, rfl⟩ := hpart.of_kind hscope
    exact mirrors_need field fun child hc =>
      shows_child hn hfunction (SyntaxTree.mem_children_of_child? hc)
  unfold planProperty
  refine Mirrors.ite (by rw [hs.kind_eq])
    (fun hk => (hchild hs (by rw [beq_iff_eq.mp hk]; decide) (by rw [beq_iff_eq.mp hk]; decide)
      "left").bind fun part partImage hpart => ?_)
    fun _ => (mirrors_pure (R := Shows doc body) hs).bind fun part partImage hpart => ?_
  -- from here on, whether the property has a default does not matter
  all_goals
    refine Mirrors.ite (by rw [hpart.kind_eq]) (fun hk => ?_) fun _ =>
      Mirrors.ite (by rw [hpart.kind_eq]) (fun hk => ?_) fun _ =>
        Mirrors.ite (by rw [hpart.kind_eq]) (fun _ => mirrors_planQualified h hP hpart)
          fun _ => mirrors_pure rfl
    · have hkind := beq_iff_eq.mp hk
      obtain ⟨hn, rfl⟩ := hpart.of_kind (by rw [hkind]; decide)
      obtain ⟨htext, htext'⟩ := h.nodeText_eq hn ((h.legible part hn).shorthand hkind)
      refine (mirrors_ask htext htext' rfl).bind fun name _ hsame => ?_
      cases hsame
      exact mirrors_after h hP.toInsertPermits hpart _
    · have hkind := beq_iff_eq.mp hk
      exact (hchild hpart (by rw [hkind]; decide) (by rw [hkind]; decide) "value").bind
        fun value _ hvalue => mirrors_planQualified h hP hvalue

omit hP in
theorem mirrors_declaresVar (hn : node ∈ body.seen) (hk : node.kind = "for_in_statement") :
    Mirrors P (fun declares declares' => declares = declares' ∧ (declares = true →
        ∃ kind, node.child? "kind" = some kind ∧ doc.spelling kind = "var".toList))
      (declaresVar doc node) (declaresVar view (node.outline doc)) := by
  unfold declaresVar
  rw [(SyntaxTree.isImage_outline doc node).child?_eq]
  cases hkind : node.child? "kind" with
  | none => exact mirrors_pure ⟨rfl, fun hno => by cases hno⟩
  | some kind =>
    have htoken := (h.legible node hn).keyword (by rw [hk]; decide) kind hkind
    obtain ⟨_, htext, htext'⟩ := h.token hn (SyntaxTree.mem_children_of_child? hkind) htoken
      fun hin => absurd hin (by rw [hk]; decide)
    refine (mirrors_ask (R := fun a b => a = doc.spelling kind ∧ b = doc.spelling kind) htext htext'
      ⟨rfl, rfl⟩).bind ?_
    rintro a b ⟨rfl, rfl⟩
    exact mirrors_pure ⟨rfl, fun hvar => ⟨kind, rfl, beq_iff_eq.mp hvar⟩⟩

theorem mirrors_planReturn (hk : body.kind = "statement_block") :
    Mirrors P Eq (planReturn doc body) (planReturn view (body.outline doc)) := by
  have hshown : ∀ part : SyntaxTree, part ∈ body.seen → part.kind ∉ functionDeclarationKinds →
      ∀ child ∈ part.constructs, Shows doc body child (part.imageOf doc child) :=
    fun part hp hfunction child hc =>
      shows_child hp hfunction (SyntaxTree.mem_children_of_mem_constructs hc)
  unfold planReturn
  rw [(SyntaxTree.isImage_outline doc body).constructs_eq, List.getLast?_map]
  cases hlast : body.constructs.getLast? with
  | none => exact mirrors_pure rfl
  | some last =>
    have hs := hshown body (SyntaxTree.mem_seen_self body) (by rw [hk]; decide) last
      (List.mem_of_getLast? hlast)
    refine Mirrors.ite (by rw [hs.kind_eq]) (fun hkLast => ?_) fun _ => mirrors_pure rfl
    have hkind := beq_iff_eq.mp hkLast
    obtain ⟨hn, himage⟩ := hs.of_kind (by rw [hkind]; decide)
    refine (mirrors_before h hP.toInsertPermits hs _).seq ?_
    rw [himage, (SyntaxTree.isImage_outline doc last).firstConstruct_eq]
    refine (mirrors_ask_map (R := Shows doc body) fun part hpart => ?_).bind fun part _ hpart =>
      mirrors_after h hP.toInsertPermits hpart _
    exact hshown last hn (by rw [hkind]; decide) part (SyntaxTree.mem_constructs_of_firstConstruct hpart)

end Plans

/-! ### Kinds of node -/

section Visits

variable (h : IsView doc body view) (hP : ScopePermits doc body P) (hn : node ∈ body.seen)
  {walk walk' : SyntaxTree → Planner Unit}
  (hwalk : ∀ child ∈ node.children, Mirrors P Eq (walk child) (walk' (node.imageOf doc child)))

include hwalk in
theorem mirrors_children :
    Mirrors P Eq (walkAll (node.children.map fun child => (child, walk child)))
      (walkAll ((node.outline doc).children.map fun child => (child, walk' child))) := by
  have himage := SyntaxTree.isImage_outline doc node
  rw [himage.children]
  exact mirrors_walkAll (fun child _ => himage.isConstruct_below child) hwalk

include h hP hn hwalk

theorem mirrors_visitDeclaration
    (hk : node.kind = "lexical_declaration" ∨ node.kind = "variable_declaration") (atTop : Bool) :
    Mirrors P Eq (visitDeclaration doc node atTop (node.children.map fun child => (child, walk child)))
      (visitDeclaration view (node.outline doc) atTop
        ((node.outline doc).children.map fun child => (child, walk' child))) := by
  refine (mirrors_declarationKind h hn hk).bind fun keyword _ hsame => ?_
  cases hsame
  refine (mirrors_setQualifying _).seq ((mirrors_children hwalk).seq ((mirrors_setQualifying _).seq ?_))
  exact Mirrors.ite Iff.rfl (fun _ => mirrors_planDeclaration h hP hn hk) fun _ => mirrors_pure rfl

theorem mirrors_visitDeclarator (hk : node.kind = "variable_declarator") :
    Mirrors P Eq (visitDeclarator doc node (node.children.map fun child => (child, walk child)))
      (visitDeclarator view (node.outline doc)
        ((node.outline doc).children.map fun child => (child, walk' child))) := by
  have hvalue : ((node.outline doc).child? "value").isSome = (node.child? "value").isSome := by
    rw [(SyntaxTree.isImage_outline doc node).child?_eq, Option.isSome_map]
  refine (mirrors_need (R := Shows doc body) "name" fun name hname => shows_child hn
    (by rw [hk]; decide) (SyntaxTree.mem_children_of_child? hname)).bind fun name nameImage hname => ?_
  have hmoved : Mirrors P Eq (do
        if (← qualifying) && name.kind == "identifier" then before doc name namespaceDot)
      (do if (← qualifying) && nameImage.kind == "identifier" then before view nameImage namespaceDot) := by
    refine mirrors_qualifying.bind fun flag _ hflag => ?_
    cases hflag
    exact Mirrors.ite (by rw [hname.kind_eq]) (fun _ => mirrors_before h hP.toInsertPermits hname _)
      fun _ => mirrors_pure rfl
  refine (mirrors_walkField "name" hwalk).seq ?_
  rw [hvalue]
  split
  · exact (mirrors_walkField "value" hwalk).unqualified.seq hmoved
  · exact hmoved

omit h hP hn in
theorem mirrors_visitDefault :
    Mirrors P Eq (visitDefault node (node.children.map fun child => (child, walk child)))
      (visitDefault (node.outline doc)
        ((node.outline doc).children.map fun child => (child, walk' child))) :=
  (mirrors_walkField "left" hwalk).seq (mirrors_walkField "right" hwalk).unqualified

theorem mirrors_visitForIn (hk : node.kind = "for_in_statement") :
    Mirrors P Eq (visitForIn doc node (node.children.map fun child => (child, walk child)))
      (visitForIn view (node.outline doc)
        ((node.outline doc).children.map fun child => (child, walk' child))) := by
  have himage := SyntaxTree.isImage_outline doc node
  have hshown : ∀ child ∈ node.children, Shows doc body child (node.imageOf doc child) :=
    fun child hc => shows_child hn (by rw [hk]; decide) hc
  have hneed := fun field => mirrors_need (P := P)
    (R := fun child childImage => node.child? field = some child ∧ Shows doc body child childImage)
    field fun child hchild => ⟨hchild, hshown child (SyntaxTree.mem_children_of_child? hchild)⟩
  refine (mirrors_declaresVar h hn hk).bind fun declares _ hdeclares => ?_
  obtain ⟨rfl, hvar⟩ := hdeclares
  refine Mirrors.ite Iff.rfl (fun hyes => ?_) fun _ => mirrors_children hwalk
  refine (hneed "kind").bind fun kind kindImage hkind => ?_
  obtain ⟨hkind, hsKind⟩ := hkind
  obtain ⟨hstart, hstart'⟩ := h.start_eq hsKind
  refine (mirrors_ask (R := fun a b => a = doc.first kind ∧ b = doc.first kind) hstart hstart'
    ⟨rfl, rfl⟩).bind ?_
  rintro a b ⟨rfl, rfl⟩
  refine (hneed "left").bind fun left leftImage hleft => ?_
  obtain ⟨hleft, hsLeft⟩ := hleft
  obtain ⟨hstop, hstop'⟩ := h.start_eq hsLeft
  refine (mirrors_ask (R := fun a b => a = doc.first left ∧ b = doc.first left) hstop hstop'
    ⟨rfl, rfl⟩).bind ?_
  rintro a b ⟨rfl, rfl⟩
  obtain ⟨keyword, hkeyword, hspelled⟩ := hvar hyes
  rw [hkind] at hkeyword
  cases hkeyword
  have hothers : Mirrors P Eq
      (walkAll ((node.children.map fun child => (child, walk child)).filter
        fun child => !child.1.sameNode left))
      (walkAll (((node.outline doc).children.map fun child => (child, walk' child)).filter
        fun child => !child.1.sameNode leftImage)) := by
    have hsame : (node.children.map (node.imageOf doc)).filter (fun child => !child.sameNode leftImage) =
        (node.children.filter fun child => !child.sameNode left).map (node.imageOf doc) := by
      rw [List.filter_map]
      refine congrArg _ (List.filter_congr fun child hc => ?_)
      exact congrArg not (h.sameNode_eq (hshown child hc) hsLeft)
    rw [himage.children, List.filter_map, List.filter_map]
    simp only [Function.comp_def]
    rw [hsame]
    exact mirrors_walkAll (fun child _ => himage.isConstruct_below child)
      fun child hc => hwalk child (List.mem_filter.mp hc).1
  refine (mirrors_emit (hP.loop node hn hk kind left hkind hleft hspelled)).seq ?_
  refine (mirrors_setQualifying true).seq ((mirrors_walkField "left" hwalk).seq ?_)
  rw [hsLeft.kind_eq]
  split
  · exact (mirrors_before h hP.toInsertPermits hsLeft _).seq ((mirrors_setQualifying false).seq hothers)
  · exact (mirrors_setQualifying false).seq hothers

omit h hP in
theorem mirrors_pattern {step step' : SyntaxTree → Planner Unit} (hk : node.kind ∉ functionDeclarationKinds)
    (hstep : ∀ {part partImage}, Shows doc body part partImage →
      Mirrors P Eq (step part) (step' partImage)) :
    Mirrors P Eq
      (do
        walkAll (node.children.map fun child => (child, walk child))
        if ← qualifying then node.constructs.forM step)
      (do
        walkAll ((node.outline doc).children.map fun child => (child, walk' child))
        if ← qualifying then (node.outline doc).constructs.forM step') := by
  refine (mirrors_children hwalk).seq (mirrors_qualifying.bind fun flag _ hflag => ?_)
  cases hflag
  refine Mirrors.ite Iff.rfl (fun _ => ?_) fun _ => mirrors_pure rfl
  rw [(SyntaxTree.isImage_outline doc node).constructs_eq]
  exact Mirrors.forM fun part hp =>
    hstep (shows_child hn hk (SyntaxTree.mem_children_of_mem_constructs hp))

end Visits

/-! ### The whole walk -/

section Walk

variable (h : IsView doc body view) (hP : ScopePermits doc body P)

include h hP

theorem mirrors_visitScope (hn : node ∈ body.seen) (hparent : Shows doc body parent parentImage) :
    Mirrors P Eq (node.fold (visitScope doc body) parent)
      ((node.outline doc).fold (visitScope view (body.outline doc)) parentImage) := by
  induction node using SyntaxTree.induction generalizing parent parentImage with
  | node info children ih =>
    have hkind : ((SyntaxTree.node info children).outline doc).kind =
        (SyntaxTree.node info children).kind := (Shows.seen hn).kind_eq
    have hsame := h.sameNode_eq hparent (.seen (SyntaxTree.mem_seen_self body))
    -- a hidden child is walked into only if its own kind is hidden, and then nothing is planned
    have hwalk : (SyntaxTree.node info children).kind ∉ functionDeclarationKinds →
        ∀ child ∈ (SyntaxTree.node info children).children,
          Mirrors P Eq (child.fold (visitScope doc body) (.node info children))
            (((SyntaxTree.node info children).imageOf doc child).fold
              (visitScope view (body.outline doc)) ((SyntaxTree.node info children).outline doc)) := by
      intro hk child hc
      have hs : Shows doc body child ((SyntaxTree.node info children).imageOf doc child) :=
        shows_child hn hk hc
      generalize (SyntaxTree.node info children).imageOf doc child = childImage at hs
      cases hs with
      | seen hseen => exact ih child hc hseen (.seen hn)
      | hidden hhidden hscope =>
        rw [visit_scope hscope, visit_scope (by exact hscope)]
        exact mirrors_pure rfl
    by_cases hk : (SyntaxTree.node info children).kind ∈ ruledKinds
    · simp only [ruledKinds, statementKinds, List.mem_append, List.mem_cons, List.not_mem_nil,
        or_false] at hk
      rcases hk with ((hk | hk | hk | hk | hk | hk) | hk | hk | hk | hk | hk) | hk
      · rw [visit_class hk, visit_class (hkind.trans hk), hsame]
        refine (mirrors_children (hwalk (by rw [hk]; decide))).seq ?_
        exact Mirrors.ite Iff.rfl (fun _ => mirrors_planNamed h hP hn (Or.inl hk))
          fun _ => mirrors_pure rfl
      · have hin : (SyntaxTree.node info children).kind ∈ functionDeclarationKinds := by rw [hk]; decide
        rw [visit_function hin, visit_function (hkind ▸ hin)]
        exact mirrors_planNamed h hP hn (Or.inr hin)
      · have hin : (SyntaxTree.node info children).kind ∈ functionDeclarationKinds := by rw [hk]; decide
        rw [visit_function hin, visit_function (hkind ▸ hin)]
        exact mirrors_planNamed h hP hn (Or.inr hin)
      · rw [visit_declaration (Or.inl hk), visit_declaration (Or.inl (hkind.trans hk)), hsame]
        exact mirrors_visitDeclaration h hP hn (hwalk (by rw [hk]; decide)) (Or.inl hk) _
      · rw [visit_declaration (Or.inr hk), visit_declaration (Or.inr (hkind.trans hk)), hsame]
        exact mirrors_visitDeclaration h hP hn (hwalk (by rw [hk]; decide)) (Or.inr hk) _
      · rw [visit_forIn hk, visit_forIn (hkind.trans hk)]
        exact mirrors_visitForIn h hP hn (hwalk (by rw [hk]; decide)) hk
      · rw [visit_declarator hk, visit_declarator (hkind.trans hk)]
        exact mirrors_visitDeclarator h hP hn (hwalk (by rw [hk]; decide)) hk
      · rw [visit_objectPattern hk, visit_objectPattern (hkind.trans hk)]
        exact mirrors_pattern hn (hwalk (by rw [hk]; decide)) (by rw [hk]; decide)
          fun hs => mirrors_planProperty h hP hs
      · rw [visit_arrayPattern hk, visit_arrayPattern (hkind.trans hk)]
        exact mirrors_pattern hn (hwalk (by rw [hk]; decide)) (by rw [hk]; decide)
          fun hs => mirrors_planQualified h hP hs
      · rw [visit_default (Or.inl hk), visit_default (Or.inl (hkind.trans hk))]
        exact mirrors_visitDefault (hwalk (by rw [hk]; decide))
      · rw [visit_default (Or.inr hk), visit_default (Or.inr (hkind.trans hk))]
        exact mirrors_visitDefault (hwalk (by rw [hk]; decide))
      · rw [visit_scope hk, visit_scope (hkind ▸ hk)]
        exact mirrors_pure rfl
    · rw [visit_other hk, visit_other (hkind ▸ hk)]
      refine mirrors_children (hwalk fun hin => hk ?_)
      rcases List.mem_cons.mp hin with hin | hin
      · rw [hin]
        decide
      · rw [List.mem_singleton.mp hin]
        decide

theorem mirrors_planScope (hk : body.kind = "statement_block") :
    Mirrors P Eq (planScope doc body) (planScope view (body.outline doc)) :=
  (mirrors_visitScope h hP (SyntaxTree.mem_seen_self body) (.seen (SyntaxTree.mem_seen_self body))).seq
    (mirrors_planReturn h hP hk)

end Walk

end NotebookCell
