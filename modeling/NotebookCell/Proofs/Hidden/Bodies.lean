import NotebookCell.Proofs.Hidden.Outline
import NotebookCell.Proofs.Pass.Bodies

/-!
# The body in an outline

In the outline of a document the body is found in the same way, and what is found is the outline of
the body. If there is none, the error is the same.
-/

namespace NotebookCell

namespace SyntaxTree

variable {doc : Document} {body : Option SyntaxTree} {node child : SyntaxTree}

def imageAround (doc : Document) (body : Option SyntaxTree) (node : SyntaxTree) : SyntaxTree :=
  if body.any node.sameNode then node.outline doc else node.outlineAround doc body

theorem outlineAround_eq (doc : Document) (body : Option SyntaxTree) (node : SyntaxTree) :
    node.outlineAround doc body =
      .node (doc.inChars node) (node.children.map (imageAround doc body)) := by
  rw [outlineAround, fold_eq, List.map_map]
  rfl

theorem info_imageAround (doc : Document) (body : Option SyntaxTree) (node : SyntaxTree) :
    (node.imageAround doc body).info = doc.inChars node := by
  unfold imageAround
  split
  · exact (isImage_outline doc node).info
  · rw [outlineAround_eq]
    rfl

theorem isImage_outlineAround (doc : Document) (body : Option SyntaxTree) (node : SyntaxTree) :
    IsImage doc (imageAround doc body) node (node.outlineAround doc body) where
  info := by
    rw [outlineAround_eq]
    rfl
  children := by
    rw [outlineAround_eq]
    rfl
  infos := info_imageAround doc body

theorem kind_imageAround (node : SyntaxTree) : (node.imageAround doc body).kind = node.kind := by
  rw [kind, info_imageAround]
  rfl

theorem imageAround_of_kind (hbody : ∀ block ∈ body, block.kind = "statement_block")
    (hk : node.kind ≠ "statement_block") :
    node.imageAround doc body = node.outlineAround doc body := by
  have hno : body.any node.sameNode = false := by
    cases body with
    | none => rfl
    | some block =>
      rw [Option.any_some, Bool.eq_false_iff]
      intro hsame
      simp only [sameNode, Bool.and_eq_true, beq_iff_eq] at hsame
      exact hk (hsame.2.trans (hbody block rfl))
  rw [imageAround, hno, if_neg Bool.false_ne_true]

theorem imageAround_self (block : SyntaxTree) :
    block.imageAround doc (some block) = block.outline doc := by
  rw [imageAround, Option.any_some, sameNode_self, if_pos rfl]

/-! ### Parentheses -/

theorem height_firstConstruct_lt (h : node.firstConstruct = .ok child) : child.height < node.height :=
  height_lt_of_mem_children (mem_children_of_mem_constructs (mem_constructs_of_firstConstruct h))

/-- If the bounds allow for the height, opening parentheses gives the image of what is inside. -/
theorem unparenthesized_imageAround (hbody : ∀ block ∈ body, block.kind = "statement_block")
    {depth depth' : Nat} (hdepth : node.height ≤ depth)
    (hdepth' : (node.imageAround doc body).height ≤ depth') :
    unparenthesized depth' (node.imageAround doc body) =
      (unparenthesized depth node).map (imageAround doc body) := by
  -- an outline can be lower than its tree, so the two bounds are independent of each other
  induction depth generalizing node depth' with
  | zero =>
    cases node with
    | node info children => cases hdepth
  | succ depth ih =>
    cases depth' with
    | zero =>
      cases himage : node.imageAround doc body with
      | node info children =>
        rw [himage] at hdepth'
        cases hdepth'
    | succ depth' =>
      rw [unparenthesized, unparenthesized, kind_imageAround]
      by_cases hk : node.kind = "parenthesized_expression"
      · have himage : node.imageAround doc body = node.outlineAround doc body :=
          imageAround_of_kind hbody (by rw [hk]; decide)
        rw [himage] at hdepth' ⊢
        rw [hk, beq_self_eq_true, if_pos rfl, if_pos rfl,
          (isImage_outlineAround doc body node).firstConstruct_eq]
        have hlt' := @height_firstConstruct_lt (node.outlineAround doc body)
        rw [(isImage_outlineAround doc body node).firstConstruct_eq] at hlt'
        cases hinner : node.firstConstruct with
        | error e => rfl
        | ok inner =>
          have hlt := height_firstConstruct_lt hinner
          rw [hinner] at hlt'
          have hltImage : (inner.imageAround doc body).height < _ := hlt' rfl
          exact ih (by omega) (by omega)
      · rw [beq_eq_false_iff_ne.mpr hk, if_neg Bool.false_ne_true, if_neg Bool.false_ne_true]
        rfl

end SyntaxTree

/-! ### The body -/

variable {doc view : Document} {source : MappedText} {body : Option SyntaxTree}

theorem expression_imageAround (hbody : ∀ block ∈ body, block.kind = "statement_block")
    {statement : SyntaxTree} (hk : statement.kind = "expression_statement") :
    ((statement.imageAround doc body).firstConstruct >>=
        unparenthesized (statement.imageAround doc body).height) =
      (statement.firstConstruct >>= unparenthesized statement.height).map
        (SyntaxTree.imageAround doc body) := by
  have himage : statement.imageAround doc body = statement.outlineAround doc body :=
    SyntaxTree.imageAround_of_kind hbody (by rw [hk]; decide)
  have hfirst := (SyntaxTree.isImage_outlineAround doc body statement).firstConstruct_eq
  have hlt' := @SyntaxTree.height_firstConstruct_lt (statement.outlineAround doc body)
  rw [himage, hfirst]
  rw [hfirst] at hlt'
  cases hinner : statement.firstConstruct with
  | error e => rfl
  | ok inner =>
    rw [hinner] at hlt'
    have hltImage : (inner.imageAround doc body).height < _ := hlt' rfl
    exact SyntaxTree.unparenthesized_imageAround hbody
      (Nat.le_of_lt (SyntaxTree.height_firstConstruct_lt hinner)) (Nat.le_of_lt hltImage)

theorem mem_nodes_of_unparenthesized {depth : Nat} {node inner : SyntaxTree}
    (h : unparenthesized depth node = .ok inner) : inner ∈ node.nodes := by
  induction depth generalizing node with
  | zero =>
    cases h
    exact SyntaxTree.mem_nodes_self _
  | succ depth ih =>
    rw [unparenthesized] at h
    split at h
    · obtain ⟨part, hpart, hrest⟩ := ok_of_bind h
      exact SyntaxTree.mem_nodes_of_child (SyntaxTree.mem_children_of_mem_constructs
        (SyntaxTree.mem_constructs_of_firstConstruct hpart)) (ih hrest)
    · cases h
      exact SyntaxTree.mem_nodes_self _

theorem mem_nodes_of_expression {depth : Nat} {statement expression : SyntaxTree}
    (h : (statement.firstConstruct >>= unparenthesized depth) = .ok expression) :
    expression ∈ statement.nodes := by
  obtain ⟨part, hpart, hopen⟩ := ok_of_bind h
  exact SyntaxTree.mem_nodes_of_child (SyntaxTree.mem_children_of_mem_constructs
    (SyntaxTree.mem_constructs_of_firstConstruct hpart)) (mem_nodes_of_unparenthesized hopen)

theorem kind_of_isFunctionKind {kind : String} (h : isFunctionKind kind = true) :
    kind = "function_expression" ∨ kind = "function" := by
  rwa [isFunctionKind, Bool.or_eq_true, beq_iff_eq, beq_iff_eq] at h

def Document.blockOf (doc : Document) (source : MappedText) (expression : SyntaxTree) :
    Except ParseError SyntaxTree :=
  if isFunctionKind expression.kind then
    match expression.child? "body" with
    | none => .error (.fault { kind := .noBody })
    | some body =>
      if body.kind == "statement_block" then .ok body else .error (.fault { kind := .noBody })
  else do
    let start ← ParseError.ofTree (doc.start expression)
    .error (.fault (.at (.notAFunction expression.kind) start source))

theorem wrappedBody_of_statement {statement : SyntaxTree} (hone : doc.root.constructs = [statement])
    (hk : statement.kind = "expression_statement") :
    doc.wrappedBody source =
      ParseError.ofTree (statement.firstConstruct >>= unparenthesized statement.height) >>=
        doc.blockOf source := by
  unfold Document.wrappedBody
  rw [hone]
  simp only [hk, beq_self_eq_true, if_true]
  rfl

theorem mem_nodes_of_wrappedBody {block : SyntaxTree} (h : doc.wrappedBody source = .ok block) :
    block ∈ doc.root.nodes := by
  cases hdoc : doc.root.constructs with
  | nil =>
    rw [Document.wrappedBody, hdoc] at h
    cases h
  | cons statement rest =>
    have hin : statement ∈ doc.root.constructs := by
      rw [hdoc]
      exact List.mem_cons_self
    cases rest with
    | cons second others =>
      rw [Document.wrappedBody, hdoc] at h
      obtain ⟨_, _, h⟩ := ok_of_bind h
      cases h
    | nil =>
      by_cases hk : statement.kind = "expression_statement"
      · rw [wrappedBody_of_statement hdoc hk] at h
        obtain ⟨expression, hexpression, h⟩ := ok_of_bind h
        have hpart := mem_nodes_of_expression (ok_of_ofTree hexpression)
        have hblock : block ∈ expression.children := by
          unfold Document.blockOf at h
          split at h
          · split at h
            · cases h
            · rename_i found hfound
              split at h
              · cases h
                exact SyntaxTree.mem_children_of_child? hfound
              · cases h
          · obtain ⟨_, _, h⟩ := ok_of_bind h
            cases h
        exact SyntaxTree.mem_nodes_of_child (SyntaxTree.mem_children_of_mem_constructs hin)
          (SyntaxTree.nodes_trans hpart
            (SyntaxTree.mem_nodes_of_child hblock (SyntaxTree.mem_nodes_self block)))
      · rw [Document.wrappedBody, hdoc] at h
        simp only [beq_eq_false_iff_ne.mpr hk, Bool.false_eq_true, if_false] at h
        cases h

section View

variable (htable : doc.offsets = charOffsets doc.text)
  (hnested : ∀ node ∈ doc.root.nodes, doc.Nested node)
  (hoffsets : view.offsets = List.range (doc.text.length + 1))

include htable hnested hoffsets

theorem start_imageAround {node : SyntaxTree} (hn : node ∈ doc.root.nodes) :
    view.start (node.imageAround doc body) = doc.start node := by
  rw [(hnested node hn).start_eq htable, (hnested node hn).start_image htable hoffsets
    (SyntaxTree.info_imageAround doc body node)]

theorem blockOf_imageAround (hbody : ∀ block ∈ body, block.kind = "statement_block")
    {expression : SyntaxTree} (hin : expression ∈ doc.root.nodes)
    (hfound : ∀ block, doc.blockOf source expression = .ok block → body = some block) :
    view.blockOf source (expression.imageAround doc body) =
      (doc.blockOf source expression).map (SyntaxTree.outline doc) := by
  unfold Document.blockOf at hfound ⊢
  rw [SyntaxTree.kind_imageAround]
  by_cases hfunction : isFunctionKind expression.kind = true
  · have himage : expression.imageAround doc body = expression.outlineAround doc body := by
      apply SyntaxTree.imageAround_of_kind hbody
      rcases kind_of_isFunctionKind hfunction with hk | hk <;> rw [hk] <;> decide
    rw [if_pos hfunction] at hfound ⊢
    rw [if_pos hfunction, himage,
      (SyntaxTree.isImage_outlineAround doc body expression).child?_eq]
    cases hchild : expression.child? "body" with
    | none => rfl
    | some block =>
      simp only [hchild, Option.map_some, SyntaxTree.kind_imageAround] at hfound ⊢
      by_cases hk : (block.kind == "statement_block") = true
      · rw [if_pos hk] at hfound ⊢
        rw [if_pos hk, hfound block rfl, SyntaxTree.imageAround_self]
        rfl
      · rw [if_neg hk, if_neg hk]
        rfl
  · rw [if_neg hfunction, if_neg hfunction, start_imageAround htable hnested hoffsets hin]
    cases ParseError.ofTree (doc.start expression) <;> rfl

theorem wrappedBody_view (hroot : view.root = doc.root.outlineAround doc body)
    (hbody : (doc.wrappedBody source).toOption = body) :
    view.wrappedBody source = (doc.wrappedBody source).map (SyntaxTree.outline doc) := by
  have hfound : ∀ block, doc.wrappedBody source = .ok block → body = some block := by
    intro block hblock
    rw [hblock] at hbody
    exact hbody.symm
  have hblock : ∀ block ∈ body, block.kind = "statement_block" := by
    intro block hb
    cases hok : doc.wrappedBody source with
    | error e =>
      rw [hok] at hbody
      cases hbody.trans hb
    | ok found =>
      cases (hfound found hok).symm.trans hb
      exact kind_of_wrappedBody hok
  have hconstructs : view.root.constructs = doc.root.constructs.map (SyntaxTree.imageAround doc body) := by
    rw [hroot, (SyntaxTree.isImage_outlineAround doc body doc.root).constructs_eq]
  have hin : ∀ child ∈ doc.root.constructs, ∀ node ∈ child.nodes, node ∈ doc.root.nodes :=
    fun child hc node hn =>
      SyntaxTree.mem_nodes_of_child (SyntaxTree.mem_children_of_mem_constructs hc) hn
  cases hdoc : doc.root.constructs with
  | nil => simp only [Document.wrappedBody, hconstructs, hdoc, List.map_nil, Except.map]
  | cons statement rest =>
    have hstatement := hin statement (by rw [hdoc]; exact List.mem_cons_self)
    cases rest with
    | cons second others =>
      have hsecond := hin second (by rw [hdoc]; exact List.mem_cons_of_mem _ List.mem_cons_self)
      simp only [Document.wrappedBody, hconstructs, hdoc, List.map_cons,
        start_imageAround htable hnested hoffsets (hsecond second (SyntaxTree.mem_nodes_self second))]
      cases ParseError.ofTree (doc.start second) <;> rfl
    | nil =>
      by_cases hk : statement.kind = "expression_statement"
      · have hone : view.root.constructs = [statement.imageAround doc body] := by
          rw [hconstructs, hdoc]
          rfl
        rw [wrappedBody_of_statement hdoc hk] at hfound
        rw [wrappedBody_of_statement hone ((SyntaxTree.kind_imageAround statement).trans hk),
          wrappedBody_of_statement hdoc hk, expression_imageAround hblock hk]
        cases hexpression : statement.firstConstruct >>= unparenthesized statement.height with
        | error e => rfl
        | ok expression =>
          rw [hexpression] at hfound
          exact blockOf_imageAround htable hnested hoffsets hblock
            (hstatement expression (mem_nodes_of_expression hexpression)) hfound
      · simp only [Document.wrappedBody, hconstructs, hdoc, List.map_cons, List.map_nil,
          SyntaxTree.kind_imageAround, beq_eq_false_iff_ne.mpr hk, Bool.false_eq_true, if_false, Except.map]

end View

end NotebookCell
