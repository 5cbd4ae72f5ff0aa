import NotebookCell.Proofs.Scope.Pass
import NotebookCell.Proofs.Scope.Statements

/-!
# The pass moves the bound names

The names that the statements of a body bind for the cell stand one behind the other, and the pass moves
each of them once and changes nothing else but frames of statements, as long as no pattern stands in an
expression of a pattern that is moved.
-/

namespace NotebookCell

variable {doc : Document} {source : MappedText} {body node : SyntaxTree} {top : Bool}

/-! ### The names stand in order -/

theorem binders_row (h : doc.PatternFormed node) :
    doc.Row (doc.first node) (doc.past node) node.binders := by
  induction node using SyntaxTree.induction with
  | node info children ih =>
    by_cases hname : (SyntaxTree.node info children).kind ∈ namedKinds ∨
        (SyntaxTree.node info children).kind ∈ nameKinds
    · rw [SyntaxTree.binders_of_name hname]
      exact ⟨h.1.1, Nat.le_refl _, Nat.le_refl _⟩
    · obtain ⟨hnamed, hleaf⟩ := not_or.mp hname
      rw [SyntaxTree.binders_of_other hnamed hleaf]
      apply (h.shaped.ordered.filter _).flatMap
      intro child hc
      have hmem := (List.mem_filter.mp hc).1
      exact ih child hmem (h.child hmem)

theorem sites_row (h : doc.PatternFormed node) :
    doc.Row (doc.first node) (doc.past node) (doc.sites node top) ∧
      ∀ site ∈ doc.sites node top, doc.PatternFormed site := by
  induction node using SyntaxTree.induction generalizing top with
  | node info children ih =>
    have hself : doc.Row (doc.first (.node info children)) (doc.past (.node info children))
        [.node info children] := ⟨h.1.1, Nat.le_refl _, Nat.le_refl _⟩
    have hnone : doc.Row (doc.first (.node info children)) (doc.past (.node info children)) [] :=
      Nat.le_of_lt h.lt
    have hconstructs : doc.Row (doc.first (.node info children)) (doc.past (.node info children))
        (SyntaxTree.node info children).constructs := h.shaped.ordered.filter _
    have hbelow : ∀ lo items, doc.Row lo (doc.past (.node info children)) items →
        (∀ child ∈ items, child ∈ children) →
        doc.Row lo (doc.past (.node info children)) (items.flatMap fun child => doc.sites child false) ∧
          ∀ site ∈ items.flatMap fun child => doc.sites child false, doc.PatternFormed site := by
      intro lo items hrow hitems
      constructor
      · apply hrow.flatMap
        intro child hc
        exact (ih child (hitems child hc) (h.child (hitems child hc))).1
      · intro site hs
        obtain ⟨child, hc, hs⟩ := List.mem_flatMap.mp hs
        exact (ih child (hitems child hc) (h.child (hitems child hc))).2 site hs
    have hinner := hbelow _ _ hconstructs fun _ => SyntaxTree.mem_children_of_mem_constructs
    rw [Document.sites_eq]
    split
    · exact ⟨hself, fun site hs => by rw [List.mem_singleton.mp hs]; exact h⟩
    split
    · split
      · exact ⟨hself, fun site hs => by rw [List.mem_singleton.mp hs]; exact h⟩
      · exact ⟨hnone, fun site hs => by cases hs⟩
    split
    · -- the patterns of declarators
      constructor
      · apply hconstructs.flatMap
        intro declarator hd
        have hformed := h.construct hd
        exact hformed.shaped.ordered.filter _
      · intro site hs
        obtain ⟨declarator, hd, hs⟩ := List.mem_flatMap.mp hs
        exact (h.construct hd).child (List.mem_filter.mp hs).1
    split
    · rename_i hloop
      obtain ⟨hk, hvar⟩ := Bool.and_eq_true_iff.mp hloop
      obtain ⟨_, left, others, _, hleft, _, _, hlist, hrowOthers, hothers⟩ :=
        exists_loop_head h (beq_iff_eq.mp hk) hvar
      have hmem := SyntaxTree.mem_children_of_child? hleft
      have hin : left ∈ (SyntaxTree.node info children).constructs := by
        rw [hlist]
        exact List.mem_cons_self
      obtain ⟨hcovLeft, hlo, _⟩ := hconstructs.mem hin
      have hbehind := hbelow _ _ hrowOthers fun child hc => by
        rw [← hothers] at hc
        exact SyntaxTree.mem_children_of_mem_constructs (List.mem_filter.mp hc).1
      rw [hleft]
      simp only [Option.any_some, Option.toList_some]
      rw [hothers]
      constructor
      · exact ⟨hcovLeft, hlo, hbehind.1⟩
      · intro site hs
        rcases List.mem_cons.mp hs with rfl | hs
        · exact h.child hmem
        · exact hbehind.2 site hs
    split
    · exact ⟨hnone, fun site hs => by cases hs⟩
    · exact hinner

theorem boundNames_row (h : doc.PatternFormed body) :
    doc.Row (doc.first body) (doc.past body) (doc.boundNames body) := by
  have hconstructs : doc.Row (doc.first body) (doc.past body) body.constructs :=
    h.shaped.ordered.filter _
  have hformed : ∀ statement ∈ body.constructs, doc.PatternFormed statement :=
    fun statement hs => h.construct hs
  have hsites : doc.Row (doc.first body) (doc.past body) (doc.bodySites body) :=
    hconstructs.flatMap fun statement hs => (sites_row (hformed statement hs)).1
  apply hsites.flatMap
  intro site hsite
  obtain ⟨statement, hs, hsite⟩ := List.mem_flatMap.mp hsite
  exact binders_row ((sites_row (hformed statement hs)).2 site hsite)

/-! ### The body -/

theorem moves_returned (h : doc.PatternFormed node) (hk : node.kind = "expression_statement")
    (hkeeps : ∀ site ∈ doc.sites node top, site.KeepsExpressions) :
    doc.Moves source (doc.first node) (doc.past node) (renderReturned doc source node)
      (doc.returnChanges source node) ((doc.sites node top).flatMap SyntaxTree.binders) := by
  have hrow : doc.Row (doc.first node) (doc.past node) node.constructs := h.shaped.ordered.filter _
  rw [Document.sites_other (by rw [hk]; decide) (by rw [hk]; decide)] at hkeeps ⊢
  have hreturn : doc.Moves source (doc.first node) (doc.first node) (.ofString "return (")
      [.inserted (doc.first node) "return ("] [] := Document.moves_inserted doc source _ (by decide)
  rw [renderReturned, List.flatMap_assoc]
  apply hreturn.append
  apply Document.moves_pieces hrow
  intro part hc
  have hpart : doc.Moves source (doc.first part) (doc.past part)
      (renderScope doc source part false .off) (doc.changes source part false)
      ((doc.sites part false).flatMap SyntaxTree.binders) :=
    moves_statement (h.construct hc)
      fun site hs => hkeeps site (List.mem_flatMap.mpr ⟨part, hc, hs⟩)
  split
  · have hclose : doc.Moves source (doc.past part) (doc.past part) (.ofString ")")
        [.inserted (doc.past part) ")"] [] := Document.moves_inserted doc source _ (by decide)
    have hall := hpart.append hclose
    rw [List.append_nil] at hall
    exact hall
  · rw [List.append_nil, List.append_nil]
    exact hpart

theorem moves_body (h : doc.PatternFormed body)
    (hkeeps : ∀ site ∈ doc.bodySites body, site.KeepsExpressions) :
    doc.Moves source (doc.first body) (doc.past body) (renderBody doc source body)
      (doc.bodyChanges source body) (doc.boundNames body) := by
  have hrow : doc.Row (doc.first body) (doc.past body) body.constructs := h.shaped.ordered.filter _
  rw [Document.boundNames, Document.bodySites, List.flatMap_assoc]
  apply Document.moves_pieces hrow
  intro statement hs
  have hformed := h.construct hs
  have hsites : ∀ site ∈ doc.sites statement true, site.KeepsExpressions :=
    fun site hsite => hkeeps site (List.mem_flatMap.mpr ⟨statement, hs, hsite⟩)
  rw [renderStatement]
  split
  · rename_i hreturned
    have hk := beq_iff_eq.mp (Bool.and_eq_true_iff.mp hreturned).1
    exact moves_returned hformed hk hsites
  · exact moves_statement hformed hsites

/-- If no pattern stands in an expression of a pattern that is moved, then what the pass changes are the
frames of statements and precisely the names that the statements of the body bind, each once. -/
theorem applyScopePass_moves_boundNames (source : MappedText) (tree body : SyntaxTree)
    (hsingle : ∀ c ∈ source, c.IsSingle) (hflag : tree.info.hasError = false)
    (hbody : (Document.ofTree source.chars tree).wrappedBody source = .ok body)
    (hformed : (Document.ofTree source.chars tree).PatternFormed body)
    (hkeeps : ∀ site ∈ (Document.ofTree source.chars tree).bodySites body,
      site.KeepsExpressions) :
    ∃ text, applyScopePass source tree = .ok text ∧
      (Document.ofTree source.chars tree).Moves source 0 source.length text
        ((Document.ofTree source.chars tree).bodyChanges source body)
        ((Document.ofTree source.chars tree).boundNames body) ∧
      (Document.ofTree source.chars tree).Row ((Document.ofTree source.chars tree).first body)
        ((Document.ofTree source.chars tree).past body)
        ((Document.ofTree source.chars tree).boundNames body) := by
  obtain ⟨edits, hplans, hwithin, hpatch⟩ :=
    exists_planScope source hformed.1 (kind_of_wrappedBody hbody)
  have hlt := hformed.lt
  have hend : (Document.ofTree source.chars tree).past body ≤ source.length := by
    rw [← MappedText.length_chars hsingle]
    exact hformed.1.1.past_le
  have hedited := editBody_of_within hflag hbody hplans hwithin (Nat.le_of_lt hlt) hend
  have hback : source.segment ((Document.ofTree source.chars tree).past body) source.length =
      source.drop ((Document.ofTree source.chars tree).past body) := by
    rw [MappedText.segment, List.take_length]
  have hfront := Document.moves_kept (Document.ofTree source.chars tree) source
    (Nat.zero_le ((Document.ofTree source.chars tree).first body))
  have hall := (hfront.append (moves_body hformed hkeeps)).append
    (Document.moves_kept (Document.ofTree source.chars tree) source hend)
  rw [List.nil_append, List.nil_append, List.append_nil, List.append_nil, hback] at hall
  rw [hpatch] at hedited
  exact ⟨_, hedited, hall, boundNames_row hformed⟩

/-- The statements of `f{let {p:[a],...r}=c;function g(){}for(var [k=x]of o)u}`. -/
def bindingStatements : List SyntaxTree :=
  [.node { kind := "lexical_declaration", start := 2, stop := 21 }
    [.token "let" 2 5 "kind",
      .node { kind := "variable_declarator", start := 6, stop := 20 }
        [.node { kind := "object_pattern", start := 6, stop := 18, field := some "name" }
          [.node { kind := "pair_pattern", start := 7, stop := 12 }
            [.leaf "property_identifier" 7 8 "key",
              .node { kind := "array_pattern", start := 9, stop := 12, field := some "value" }
                [.leaf "identifier" 10 11]],
            .node { kind := "rest_pattern", start := 13, stop := 17 } [.leaf "identifier" 16 17]],
          .leaf "identifier" 19 20 "value"]],
    .node { kind := "function_declaration", start := 21, stop := 35 }
      [.token "function" 21 29, .leaf "identifier" 30 31 "name",
        .leaf "formal_parameters" 31 33 "parameters", .leaf "statement_block" 33 35 "body"],
    .node { kind := "for_in_statement", start := 35, stop := 54 }
      [.token "for" 35 38, .token "var" 39 42 "kind",
        .node { kind := "array_pattern", start := 43, stop := 48, field := some "left" }
          [.node { kind := "assignment_pattern", start := 44, stop := 47 }
            [.leaf "identifier" 44 45 "left", .leaf "identifier" 46 47 "right"]],
        .token "of" 48 50 "operator", .leaf "identifier" 51 52 "right",
        .node { kind := "expression_statement", start := 53, stop := 54, field := some "body" }
          [.leaf "identifier" 53 54]]]

def bindingBody : SyntaxTree :=
  .node { kind := "statement_block", start := 1, stop := 55, field := some "body" } bindingStatements

theorem applyScopePass_moves_boundNames_applied :
    let source :=
      MappedText.ofString "f\x7blet \x7bp:[a],...r\x7d=c;function g()\x7b\x7dfor(var [k=x]of o)u\x7d"
    let tree := SyntaxTree.ofBlock 55 1 55 bindingStatements
    let doc := Document.ofTree source.chars tree
    doc.PatternFormed bindingBody ∧
      (∀ site ∈ doc.bodySites bindingBody, site.KeepsExpressions) ∧
      (doc.boundNames bindingBody).map doc.spelling =
        ["a".toList, "r".toList, "function g()\x7b\x7d".toList, "k".toList] ∧
      (applyScopePass source tree).map MappedText.toString =
        .ok ("f\x7bvoid ((\x7bp:[__global.a],...__global.r\x7d=c));" ++
          "void (__global.g=function g()\x7b\x7d);for([__global.k=x]of o)u\x7d") ∧
      ∃ text, applyScopePass source tree = .ok text ∧
        doc.Moves source 0 source.length text (doc.bodyChanges source bindingBody)
          (doc.boundNames bindingBody) ∧
        doc.Row (doc.first bindingBody) (doc.past bindingBody) (doc.boundNames bindingBody) := by
  intro source tree doc
  have hformed : doc.PatternFormed bindingBody := by decide
  have hkeeps : ∀ site ∈ doc.bodySites bindingBody, site.KeepsExpressions := by decide
  exact ⟨hformed, hkeeps, by decide, by decide, applyScopePass_moves_boundNames source tree bindingBody
    (MappedText.isSingle_ofString _) rfl rfl hformed hkeeps⟩

/-- The statements of `f{var {[{a}=b]:c}=d}`, in which a pattern stands in the key of a property. -/
def computedKeyStatements : List SyntaxTree :=
  [.node { kind := "variable_declaration", start := 2, stop := 19 }
    [.token "var" 2 5,
      .node { kind := "variable_declarator", start := 6, stop := 19 }
        [.node { kind := "object_pattern", start := 6, stop := 17, field := some "name" }
          [.node { kind := "pair_pattern", start := 7, stop := 16 }
            [.node { kind := "computed_property_name", start := 7, stop := 14, field := some "key" }
              [.node { kind := "assignment_expression", start := 8, stop := 13 }
                [.node { kind := "object_pattern", start := 8, stop := 11, field := some "left" }
                  [.leaf "shorthand_property_identifier_pattern" 9 10],
                  .leaf "identifier" 12 13 "right"]],
              .leaf "identifier" 15 16 "value"]],
          .leaf "identifier" 18 19 "value"]]]

def computedKeyBody : SyntaxTree :=
  .node { kind := "statement_block", start := 1, stop := 20, field := some "body" }
    computedKeyStatements

/-- The key of a property is an expression, and yet the pattern in it moves: `a` is not bound there. -/
theorem applyScopePass_moves_key :
    let source := MappedText.ofString "f\x7bvar \x7b[\x7ba\x7d=b]:c\x7d=d\x7d"
    let tree := SyntaxTree.ofBlock 20 1 20 computedKeyStatements
    let doc := Document.ofTree source.chars tree
    doc.PatternFormed computedKeyBody ∧
      (doc.boundNames computedKeyBody).map doc.spelling = ["c".toList] ∧
      (applyScopePass source tree).map MappedText.toString =
        .ok "f\x7bvoid ((\x7b[\x7ba:__global.a\x7d=b]:__global.c\x7d=d))\x7d" := by
  intro source tree doc
  exact ⟨by decide, by decide, by decide⟩

end NotebookCell
