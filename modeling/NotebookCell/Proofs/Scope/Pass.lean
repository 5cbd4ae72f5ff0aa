import NotebookCell.Proofs.Pass.Bodies
import NotebookCell.Proofs.Scope.Frames

/-!
# The scope pass is its rendering

By induction over the tree every node of the body is planned as its rendering says; the body and the
returned value are put together on top, and the rest of the text is left alone.
-/

namespace NotebookCell

open Planner

variable {doc : Document} {source : MappedText} {body node parent : SyntaxTree} {mode : NameMode}

/-! ### Every node -/

theorem Ready.planned {own extra : SyntaxTree → NameMode → List Edit}
    (h : Ready doc source body node mode own extra) :
    ∃ o e, Planned doc source body node parent mode o e := by
  by_cases hk : node.kind ∈ ruledKinds
  · simp only [ruledKinds, statementKinds, List.mem_append, List.mem_cons, List.not_mem_nil,
      or_false] at hk
    rcases hk with ((hk | hk | hk | hk | hk | hk) | hk | hk | hk | hk | hk) | hk
    · exact h.class_ hk
    · exact h.function (by rw [hk]; decide)
    · exact h.function (by rw [hk]; decide)
    · exact h.declaration (Or.inl hk)
    · exact h.declaration (Or.inr hk)
    · exact h.loop hk
    · exact h.declarator hk
    · exact h.objectPattern hk
    · exact h.arrayPattern hk
    · exact h.withDefault (Or.inl hk)
    · exact h.withDefault (Or.inr hk)
    · exact h.scope hk
  · exact h.other hk

theorem sameNode_of_shorter
    (h : doc.past node - doc.first node < doc.past body - doc.first body) :
    node.sameNode body = false := by
  rw [Bool.eq_false_iff]
  intro hsame
  simp only [SyntaxTree.sameNode, Bool.and_eq_true, beq_iff_eq] at hsame
  rw [Document.first, Document.past, hsame.1.1, hsame.1.2] at h
  exact Nat.lt_irrefl _ h

/-- All nodes inside the body that are shorter than it are planned. -/
theorem exists_ready (hwf : doc.WellFormed node)
    (hshort : doc.past node - doc.first node < doc.past body - doc.first body)
    (hallowed : mode = .off ∨ node.exposes = false) :
    ∃ own extra, Ready doc source body node mode own extra := by
  induction node using SyntaxTree.induction generalizing mode with
  | node info children ih =>
    obtain ⟨hcov, hshaped⟩ := hwf
    have hself := hshaped _ (SyntaxTree.mem_nodes_self _)
    have hbelow : ∀ child ∈ children, ∀ mode, mode = .off ∨ child.exposes = false →
        ∃ o e, Planned doc source body child (.node info children) mode o e := by
      intro child hc mode hmode
      obtain ⟨hcovChild, hlo, hhi⟩ := hself.ordered.mem hc
      have hwfChild : doc.WellFormed child :=
        ⟨hcovChild, fun part hp => hshaped part (SyntaxTree.mem_nodes_of_child hc hp)⟩
      have hlt := hcovChild.2.2
      obtain ⟨own, extra, hready⟩ := @ih child hc mode hwfChild (by omega) hmode
      exact hready.planned
    choose! own extra hplanned using hbelow
    exact ⟨own, extra, hself, hcov, sameNode_of_shorter hshort, hplanned, hallowed⟩

/-! ### The body -/

theorem exists_statements (source : MappedText) (hwf : doc.WellFormed body) (hk : body.kind = "statement_block") :
    ∀ statement ∈ body.constructs,
      ∃ own extra, Ready doc source body statement .off own extra := by
  intro statement hs
  have hself := hwf.2 body (SyntaxTree.mem_nodes_self body)
  have hchild := SyntaxTree.mem_children_of_mem_constructs hs
  have hwfStatement : doc.WellFormed statement :=
    ⟨(hself.ordered.mem hchild).1,
      fun part hp => hwf.2 part (SyntaxTree.mem_nodes_of_child hchild hp)⟩
  exact exists_ready hwfStatement (hself.block hk statement hs) (Or.inl rfl)

def returning (doc : Document) (statement value : SyntaxTree) : List Edit :=
  [.insertBefore (doc.first statement) (.plain "return (".toList),
    .insertAfter (doc.past value) (.plain [')'])]

theorem agree_returning (statement value : SyntaxTree) (lo hi : Nat) :
    Edit.Agree lo hi (returning doc statement value)
      [.insertAfter (doc.past value) (.plain [')']),
        .insertBefore (doc.first statement) (.plain "return (".toList)] := by
  intro k _ _ held
  simp only [returning, Edit.content_cons, Edit.content_nil, Edit.onSlot]
  by_cases hfront : (doc.first statement : Int) = k
  · by_cases hback : (doc.past value : Int) - 1 = k
    · simp only [hfront, hback, if_true, List.append_assoc]
    · simp only [hfront, hback, if_true, if_false]
  · simp only [hfront, if_false]

theorem Ready.patch_returning {own extra : SyntaxTree → NameMode → List Edit}
    (h : Ready doc source body node .off own extra) (hk : node.kind = "expression_statement")
    {value : SyntaxTree} {others : List SyntaxTree} (hvalue : node.constructs = value :: others)
    {edits : List Edit} (hedits : (node.fold (visitScope doc body) parent).Plans false edits) :
    Edit.patch source (edits ++ returning doc node value) (doc.first node) (doc.past node) =
      renderReturned doc source node := by
  have hscope : node.kind ∉ scopeKinds := by rw [hk]; decide
  have hwalk := h.walkAll hscope (by rw [hk]; decide) (by rw [hk]; decide) (by rw [hk]; decide)
  rw [visit_other (by rw [hk]; decide)] at hedits
  have hown : edits = allOf node .off own := hedits.unique hwalk
  have hin : value ∈ node.constructs := by
    rw [hvalue]
    exact List.mem_cons_self
  have hback : doc.InNode value [.insertAfter (doc.past value) (.plain [')'])] := by
    have hlt := (h.row.mem hin).1.2.2
    apply Edit.allWithin_singleton
    simp only [Edit.Within]
    omega
  have hover := h.over_constructs hscope
  rw [h.extra_nil hscope fun child _ => childMode_off node child, List.append_nil] at hover
  have hboth := hover.append (Document.over_single h.row hin hback)
  have hsplit : Edit.patch source (edits ++ returning doc node value) (doc.first node)
      (doc.past node) = Edit.patch source
        (allOf node .off own ++ [.insertAfter (doc.past value) (.plain [')'])] ++
          [.insertBefore (doc.first node) (.plain "return (".toList)])
        (doc.first node) (doc.past node) := by
    rw [hown, List.append_assoc]
    exact ((Edit.agree_refl _ _ _).append (agree_returning node value _ _)).patch_eq source
  rw [hsplit, Edit.patch_insertBefore source _ _ h.covers.2.2, renderReturned]
  congr 1
  apply hboth.patch_eq h.row source
  intro part hpart
  have hplanned := h.below part (SyntaxTree.mem_children_of_mem_constructs hpart) .off (Or.inl rfl)
  have hnone : extra part .off = [] := hplanned.extra_eq_nil rfl
  have hpatch := hplanned.patch
  rw [hnone, List.append_nil, h.deep] at hpatch
  rw [childMode_off, hnone, List.append_nil, hvalue, List.head?_cons, Option.any_some]
  by_cases heq : part = value
  · rw [heq, if_pos rfl, SyntaxTree.sameNode_self, if_pos rfl, ← heq,
      Edit.patch_insertAfter source _ _ (h.row.mem hpart).1.2.2, hpatch]
    rfl
  · have hapart := h.row.first_ne hpart hin heq
    rw [if_neg hapart, Document.sameNode_eq_false hapart, if_neg Bool.false_ne_true, List.append_nil, List.append_nil, hpatch]

theorem runs_statements {own : SyntaxTree → List Edit} (hk : body.kind = "statement_block")
    (hplanned : ∀ statement ∈ body.constructs,
      Planned doc source body statement body .off (own statement) []) :
    (body.fold (visitScope doc body) body).Plans false (body.constructs.flatMap own) := by
  rw [visit_other (by rw [hk]; decide), walked, walkAll_map]
  exact runs_forM fun statement hs => (hplanned statement hs).walk

theorem planReturn_eq_pure (h : ∀ last, body.constructs.getLast? = some last →
    last.kind ≠ "expression_statement") (flag : Bool) : (planReturn doc body).Plans flag [] := by
  unfold planReturn
  cases hlast : body.constructs.getLast? with
  | none => exact runs_pure () flag
  | some last =>
    simp only [beq_iff_eq, h last hlast, if_false]
    exact runs_pure () flag

theorem runs_planReturn {last value : SyntaxTree} {others : List SyntaxTree}
    (hlast : body.constructs.getLast? = some last) (hk : last.kind = "expression_statement")
    (hvalue : last.constructs = value :: others) (hcov : doc.Covers last)
    (hcovValue : doc.Covers value) (flag : Bool) :
    (planReturn doc body).Plans flag (returning doc last value) := by
  have hfirst : last.firstConstruct = .ok value := by
    rw [SyntaxTree.firstConstruct, hvalue]
  unfold planReturn
  simp only [hlast, hk, beq_self_eq_true, if_true]
  exact Plans.seq (runs_before hcov _ flag)
    (Runs.bind (runs_ask hfirst flag) (runs_after hcovValue _ flag))

theorem returning_within {value : SyntaxTree} (hordered : doc.Ordered node)
    (hvalue : value ∈ node.constructs) : doc.InNode node (returning doc node value) := by
  obtain ⟨hcov, hlo, hhi⟩ := hordered.mem (SyntaxTree.mem_children_of_mem_constructs hvalue)
  have hlt := hcov.2.2
  intro edit he
  rcases List.mem_cons.mp he with rfl | he
  · simp only [Edit.Within]
    omega
  · rw [List.mem_singleton.mp he]
    simp only [Edit.Within]
    omega

theorem exists_planScope_of_last (hwf : doc.WellFormed body) (hk : body.kind = "statement_block")
    {own : SyntaxTree → List Edit} (hplanned : ∀ statement ∈ body.constructs,
      Planned doc source body statement body .off (own statement) [])
    {last : SyntaxTree} (hlast : body.constructs.getLast? = some last)
    (hkLast : last.kind = "expression_statement") :
    ∃ edits, (planScope doc body).Plans false edits ∧ doc.InNode body edits ∧
      Edit.patch source edits (doc.first body) (doc.past body) = renderBody doc source body := by
  have hrow := (hwf.2 body (SyntaxTree.mem_nodes_self body)).ordered.filter SyntaxTree.isConstruct
  have hin : last ∈ body.constructs := List.mem_of_getLast? hlast
  obtain ⟨own', extra', hready⟩ := exists_statements source hwf hk last hin
  obtain ⟨value, others, hvalue⟩ := List.exists_cons_of_ne_nil (hready.shaped.statement hkLast)
  have hinValue : value ∈ last.constructs := by
    rw [hvalue]
    exact List.mem_cons_self
  have hover := (Document.over_flatMap hrow fun statement hs =>
    (hplanned statement hs).own_within).append
      (Document.over_single hrow hin (returning_within hready.shaped.ordered hinValue))
  refine ⟨_, Plans.seq (runs_statements hk hplanned)
    (runs_planReturn hlast hkLast hvalue hready.covers (hready.row.mem hinValue).1 false),
    hover.allWithin hrow, hover.patch_eq hrow source ?_⟩
  intro statement hs
  rw [renderStatement, hlast, Option.any_some]
  by_cases heq : statement = last
  · rw [heq, if_pos rfl, hkLast, SyntaxTree.sameNode_self]
    exact hready.patch_returning hkLast hvalue (hplanned last hin).walk
  · have hapart := hrow.first_ne hs hin heq
    have hpatch := (hplanned statement hs).patch
    rw [List.append_nil, SyntaxTree.sameNode_self] at hpatch
    rw [if_neg hapart, Document.sameNode_eq_false hapart, Bool.and_false, if_neg Bool.false_ne_true,
      List.append_nil]
    exact hpatch

/-- The edits of a body whose last statement, if there is one, is no expression. -/
theorem exists_planScope_of_other (hwf : doc.WellFormed body) (hk : body.kind = "statement_block")
    {own : SyntaxTree → List Edit} (hplanned : ∀ statement ∈ body.constructs,
      Planned doc source body statement body .off (own statement) [])
    (hother : ∀ last, body.constructs.getLast? = some last → last.kind ≠ "expression_statement") :
    ∃ edits, (planScope doc body).Plans false edits ∧ doc.InNode body edits ∧
      Edit.patch source edits (doc.first body) (doc.past body) = renderBody doc source body := by
  have hrow := (hwf.2 body (SyntaxTree.mem_nodes_self body)).ordered.filter SyntaxTree.isConstruct
  have hover := Document.over_flatMap hrow fun statement hs => (hplanned statement hs).own_within
  have hall : (planScope doc body).Plans false (body.constructs.flatMap own ++ []) :=
    Plans.seq (runs_statements hk hplanned) (planReturn_eq_pure hother false)
  rw [List.append_nil] at hall
  refine ⟨_, hall, hover.allWithin hrow, hover.patch_eq hrow source ?_⟩
  intro statement hs
  have hno : (statement.kind == "expression_statement" &&
      body.constructs.getLast?.any statement.sameNode) = false := by
    rw [Bool.eq_false_iff]
    intro hyes
    rw [Bool.and_eq_true, beq_iff_eq, Option.any_eq_true] at hyes
    obtain ⟨hkStatement, last, hlast, hsame⟩ := hyes
    simp only [SyntaxTree.sameNode, Bool.and_eq_true, beq_iff_eq] at hsame
    exact hother last hlast (hsame.2.symm.trans hkStatement)
  have hpatch := (hplanned statement hs).patch
  rw [List.append_nil, SyntaxTree.sameNode_self] at hpatch
  rw [renderStatement, hno, if_neg Bool.false_ne_true]
  exact hpatch

theorem exists_planScope (source : MappedText) (hwf : doc.WellFormed body)
    (hk : body.kind = "statement_block") :
    ∃ edits, (planScope doc body).Plans false edits ∧ doc.InNode body edits ∧
      Edit.patch source edits (doc.first body) (doc.past body) = renderBody doc source body := by
  have hexists : ∀ statement ∈ body.constructs, ∃ edits,
      Planned doc source body statement body .off edits [] := by
    intro statement hs
    obtain ⟨own, extra, hready⟩ := exists_statements source hwf hk statement hs
    obtain ⟨o, e, hplanned⟩ : ∃ o e, Planned doc source body statement body .off o e :=
      hready.planned
    have hnone : e = [] := hplanned.extra_eq_nil rfl
    rw [hnone] at hplanned
    exact ⟨o, hplanned⟩
  choose! own hplanned using hexists
  by_cases hreturns : ∃ last, body.constructs.getLast? = some last ∧
      last.kind = "expression_statement"
  · obtain ⟨last, hlast, hkLast⟩ := hreturns
    exact exists_planScope_of_last hwf hk hplanned hlast hkLast
  · exact exists_planScope_of_other hwf hk hplanned fun last hlast hkLast =>
      hreturns ⟨last, hlast, hkLast⟩

/-- The pass renders the body and leaves the rest of the text alone. -/
theorem applyScopePass_renders (source : MappedText) (tree body : SyntaxTree)
    (hsingle : ∀ c ∈ source, c.IsSingle) (hflag : tree.info.hasError = false)
    (hbody : (Document.ofTree source.chars tree).wrappedBody source = .ok body)
    (hwf : (Document.ofTree source.chars tree).WellFormed body) :
    applyScopePass source tree = .ok
      (source.take ((Document.ofTree source.chars tree).first body) ++
        renderBody (Document.ofTree source.chars tree) source body ++
        source.drop ((Document.ofTree source.chars tree).past body)) := by
  obtain ⟨edits, hplans, hwithin, hpatch⟩ :=
    exists_planScope source hwf (kind_of_wrappedBody hbody)
  have hend : (Document.ofTree source.chars tree).past body ≤ source.length := by
    rw [← MappedText.length_chars hsingle]
    exact hwf.1.past_le
  rw [applyScopePass, editBody_of_within hflag hbody hplans hwithin (Nat.le_of_lt hwf.1.2.2) hend,
    hpatch]

/-- The statements of `f{let [a,{b=1}]=c;a}`. -/
def patternStatements : List SyntaxTree :=
  [.node { kind := "lexical_declaration", start := 2, stop := 18 }
    [.token "let" 2 5 "kind",
      .node { kind := "variable_declarator", start := 6, stop := 17 }
        [.node { kind := "array_pattern", start := 6, stop := 15, field := some "name" }
          [.leaf "identifier" 7 8,
            .node { kind := "object_pattern", start := 9, stop := 14 }
              [.node { kind := "object_assignment_pattern", start := 10, stop := 13 }
                [.leaf "shorthand_property_identifier_pattern" 10 11 "left",
                  .leaf "number" 12 13 "right"]]],
          .leaf "identifier" 16 17 "value"]],
    .node { kind := "expression_statement", start := 18, stop := 19 } [.leaf "identifier" 18 19]]

def patternBody : SyntaxTree :=
  .node { kind := "statement_block", start := 1, stop := 20, field := some "body" } patternStatements

theorem applyScopePass_renders_applied :
    let source := MappedText.ofString "f\x7blet [a,\x7bb=1\x7d]=c;a\x7d"
    let tree := SyntaxTree.ofBlock 20 1 20 patternStatements
    let doc := Document.ofTree source.chars tree
    doc.WellFormed patternBody ∧
      applyScopePass source tree =
        .ok (source.take 1 ++ renderBody doc source patternBody ++ source.drop 20) ∧
      (renderBody doc source patternBody).chars =
        "\x7bvoid (([__global.a,\x7bb:__global.b=1\x7d]=c));return (a)\x7d".toList := by
  intro source tree doc
  have hwf : doc.WellFormed patternBody := by decide +kernel
  exact ⟨hwf, applyScopePass_renders source tree patternBody (MappedText.isSingle_ofString _) rfl rfl hwf,
    by decide +kernel⟩

end NotebookCell
