import NotebookCell.Cell.Transpile
import NotebookCell.Proofs.Pass.Runs
import NotebookCell.Proofs.Provenance.Marks

/-!
# Provenance through the passes

Both passes plan plain edits only, whatever the tree, so that every character of their output is
traced to the input. Since the wrapper and the closing line are nobody's text, every origin in a
transpiled cell is one of the cell's own, and origins never go back from left to right.
-/

namespace NotebookCell

open Planner

/-! ### All edits are plain -/

section Plain

variable (doc : Document)

theorem emits_between (start stop : Nat) (text : List Char) :
    Emits Edit.IsPlain (between start stop text) := emits_emit ⟨text, rfl⟩

theorem emits_before (node : SyntaxTree) (text : List Char) :
    Emits Edit.IsPlain (before doc node text) :=
  (emits_ask _).bind fun _ => emits_emit ⟨text, rfl⟩

theorem emits_after (node : SyntaxTree) (text : List Char) :
    Emits Edit.IsPlain (after doc node text) :=
  (emits_ask _).bind fun _ => emits_emit ⟨text, rfl⟩

theorem emits_walkAll {children : List Walked} (h : ∀ child ∈ children, Emits Edit.IsPlain child.2) :
    Emits Edit.IsPlain (walkAll children) :=
  Emits.forM fun child hc => h child (List.mem_filter.mp hc).1

theorem emits_walkField {children : List Walked}
    (h : ∀ child ∈ children, Emits Edit.IsPlain child.2) (node : SyntaxTree) (field : String) :
    Emits Edit.IsPlain (walkField node children field) := by
  unfold walkField
  split
  · rename_i child hfind
    exact h child (List.mem_of_find?_eq_some hfind)
  · exact emits_throw _

theorem emits_unqualified {walk : Planner Unit} (h : Emits Edit.IsPlain walk) :
    Emits Edit.IsPlain (unqualified walk) :=
  emits_qualifying.bind fun flag => (emits_setQualifying false).bind fun _ =>
    h.bind fun _ => emits_setQualifying flag

/-! #### Imports -/

theorem emits_importSpecifierOf (node : SyntaxTree) :
    Emits Edit.IsPlain (importSpecifierOf doc node) := by
  unfold importSpecifierOf
  split
  · exact emits_pure _
  · split
    · exact emits_pure _
    · exact (emits_ask _).bind fun _ => emits_throw _

theorem emits_needSpecifier (found : Option SyntaxTree) :
    Emits Edit.IsPlain (needSpecifier found) := by
  cases found with
  | some source => exact emits_pure _
  | none => exact emits_throw _

theorem emits_joinBindings (current : SyntaxTree) (bindings : List SyntaxTree) :
    Emits Edit.IsPlain (joinBindings doc current bindings) := by
  induction bindings generalizing current with
  | nil => exact emits_pure _
  | cons binding rest ih =>
    exact (emits_ask _).bind fun stop => (emits_ask _).bind fun start =>
      (emits_between stop start _).bind fun _ => ih binding

theorem emits_planImportStatement (node : SyntaxTree) :
    Emits Edit.IsPlain (planImportStatement doc node) := by
  refine (emits_importSpecifierOf doc node).bind fun found => ?_
  have hclose : ∀ opening closing : List Char, ∀ place source, Emits Edit.IsPlain (do
      between place (← ask (doc.start source)) opening
      between (← ask (doc.stop source)) (← ask (doc.stop node)) closing) := fun _ _ _ _ =>
    (emits_ask _).bind fun _ => (emits_between _ _ _).bind fun _ =>
      (emits_ask _).bind fun _ => (emits_ask _).bind fun _ => emits_between _ _ _
  split
  · rename_i first rest hbindings
    exact (emits_ask _).bind fun _ => (emits_ask _).bind fun _ => (emits_between _ _ _).bind fun _ =>
      (emits_joinBindings doc first rest).bind fun _ => (emits_ask _).bind fun stop =>
        (emits_needSpecifier found).bind fun source => hclose _ _ stop source
  · exact (emits_ask _).bind fun start => (emits_needSpecifier found).bind fun source =>
      hclose _ _ start source

theorem emits_planDefaultBindings (node : SyntaxTree) :
    Emits Edit.IsPlain (planDefaultBindings doc node) :=
  Emits.forM fun child _ => (emits_before doc child _).bind fun _ => emits_after doc child _

theorem emits_planNamedBinding (node : SyntaxTree) :
    Emits Edit.IsPlain (planNamedBinding doc node) := by
  refine (emits_before doc node _).bind fun _ => ?_
  split
  · exact (emits_pure _).bind fun _ => emits_after doc node _
  · exact (emits_need _ _).bind fun _ => (emits_ask _).bind fun _ => (emits_ask _).bind fun _ =>
      (emits_between _ _ _).bind fun _ => emits_after doc node _

theorem emits_planNamespaceBinding (node : SyntaxTree) :
    Emits Edit.IsPlain (planNamespaceBinding doc node) := by
  unfold planNamespaceBinding
  split
  · exact emits_throw _
  · exact (emits_ask _).bind fun _ => (emits_ask _).bind fun _ => emits_between _ _ _

theorem emits_planImports (body : SyntaxTree) : Emits Edit.IsPlain (planImports doc body) := by
  unfold planImports
  induction body using SyntaxTree.induction with
  | node info children ih =>
    rw [SyntaxTree.fold_node]
    have hchildren : ∀ child ∈ children.map fun tree => (tree, tree.fold (visitImports doc)),
        Emits Edit.IsPlain child.2 := by
      intro child hc
      obtain ⟨tree, ht, rfl⟩ := List.mem_map.mp hc
      exact ih tree ht
    have hwalk := emits_walkAll hchildren
    refine Emits.ite ((emits_planImportStatement doc _).bind fun _ => hwalk) ?_
    refine Emits.ite ((emits_planDefaultBindings doc _).bind fun _ => hwalk) ?_
    refine Emits.ite (emits_planNamedBinding doc _) ?_
    refine Emits.ite (emits_planNamespaceBinding doc _) ?_
    exact Emits.ite (emits_pure _) hwalk

/-! #### Scope -/

theorem emits_planQualified (element : SyntaxTree) :
    Emits Edit.IsPlain (planQualified doc element) := by
  have htarget : Emits Edit.IsPlain (boundTarget element) :=
    (emits_pure _).ite (((emits_ask _).map some).ite (emits_pure _))
  refine htarget.bind fun target => ?_
  split
  · exact emits_pure _
  · exact (emits_before doc _ _).ite (emits_pure _)

theorem emits_planNamed (node : SyntaxTree) : Emits Edit.IsPlain (planNamed doc node) :=
  (emits_need _ _).bind fun _ => (emits_ask _).bind fun _ =>
    (emits_before doc node _).bind fun _ => emits_after doc node _

theorem emits_declarationKind (node : SyntaxTree) :
    Emits Edit.IsPlain (declarationKind doc node) := by
  unfold declarationKind
  split
  · exact emits_ask _
  · split
    · exact emits_ask _
    · exact emits_throw _

theorem emits_planDeclaration (node : SyntaxTree) :
    Emits Edit.IsPlain (planDeclaration doc node) := by
  have hone : ∀ declarator, Emits Edit.IsPlain (planDeclarator doc declarator) := fun declarator =>
    (emits_before doc declarator _).bind fun _ =>
      (emits_after doc declarator _).ite (emits_after doc declarator _)
  unfold planDeclaration
  simp only
  split
  · exact (emits_ask _).bind fun _ => (emits_ask _).bind fun _ => (emits_between _ _ _).bind fun _ =>
      (Emits.forM fun declarator _ => hone declarator).bind fun _ => emits_after doc _ _
  · exact (emits_ask _).bind fun _ => emits_throw _

theorem emits_planProperty (property : SyntaxTree) :
    Emits Edit.IsPlain (planProperty doc property) := by
  have hkinds : ∀ property : SyntaxTree, Emits Edit.IsPlain
      (if property.kind == "shorthand_property_identifier_pattern" then do
        let name ← ask (doc.nodeText property)
        after doc property (':' :: (namespaceDot ++ name))
      else if property.kind == "pair_pattern" then do
        planQualified doc (← need property "value")
      else if property.kind == "rest_pattern" then planQualified doc property
      else pure ()) := fun property =>
    Emits.ite ((emits_ask _).bind fun _ => emits_after doc property _)
      (Emits.ite ((emits_need _ _).bind fun value => emits_planQualified doc value)
        (Emits.ite (emits_planQualified doc property) (emits_pure _)))
  unfold planProperty
  split
  · exact (emits_need _ _).bind hkinds
  · exact (emits_pure _).bind hkinds

theorem emits_declaresVar (node : SyntaxTree) : Emits Edit.IsPlain (declaresVar doc node) := by
  unfold declaresVar
  split
  · exact emits_pure _
  · exact (emits_ask _).bind fun _ => emits_pure _

theorem emits_planReturn (body : SyntaxTree) : Emits Edit.IsPlain (planReturn doc body) := by
  unfold planReturn
  split
  · exact emits_pure _
  · exact Emits.ite ((emits_before doc _ _).bind fun _ => (emits_ask _).bind fun _ =>
      emits_after doc _ _) (emits_pure _)

section Children

variable {children : List Walked} (h : ∀ child ∈ children, Emits Edit.IsPlain child.2)

include h

theorem emits_visitDeclaration (node : SyntaxTree) (atTop : Bool) :
    Emits Edit.IsPlain (visitDeclaration doc node atTop children) :=
  (emits_declarationKind doc node).bind fun _ => (emits_setQualifying _).bind fun _ =>
    (emits_walkAll h).bind fun _ => (emits_setQualifying _).bind fun _ =>
      (emits_planDeclaration doc node).ite (emits_pure _)

theorem emits_visitDeclarator (node : SyntaxTree) :
    Emits Edit.IsPlain (visitDeclarator doc node children) := by
  refine (emits_need _ _).bind fun name => (emits_walkField h node _).bind fun _ => ?_
  have hname : Emits Edit.IsPlain (do
      if (← qualifying) && name.kind == "identifier" then before doc name namespaceDot) :=
    emits_qualifying.bind fun _ => (emits_before doc name _).ite (emits_pure _)
  split
  · exact (emits_unqualified (emits_walkField h node _)).bind fun _ => hname
  · exact hname

theorem emits_visitDefault (node : SyntaxTree) :
    Emits Edit.IsPlain (visitDefault node children) :=
  (emits_walkField h node _).bind fun _ => emits_unqualified (emits_walkField h node _)

theorem emits_visitForIn (node : SyntaxTree) :
    Emits Edit.IsPlain (visitForIn doc node children) := by
  have hothers : ∀ left, Emits Edit.IsPlain
      (walkAll (children.filter fun child => !child.1.sameNode left)) := fun left =>
    emits_walkAll fun child hc => h child (List.mem_filter.mp hc).1
  refine (emits_declaresVar doc node).bind fun declares => ?_
  split
  · refine (emits_need _ _).bind fun _ => (emits_ask _).bind fun _ => (emits_need _ _).bind fun left =>
      (emits_ask _).bind fun _ => (emits_between _ _ _).bind fun _ => (emits_setQualifying _).bind fun _ =>
        (emits_walkField h node _).bind fun _ => ?_
    split
    · exact (emits_before doc left _).bind fun _ => (emits_setQualifying _).bind fun _ => hothers left
    · exact (emits_setQualifying _).bind fun _ => hothers left
  · exact emits_walkAll h

end Children

theorem emits_planScope (body : SyntaxTree) : Emits Edit.IsPlain (planScope doc body) := by
  have hvisit : ∀ tree parent : SyntaxTree, Emits Edit.IsPlain (tree.fold (visitScope doc body) parent) := by
    intro tree
    induction tree using SyntaxTree.induction with
    | node info children ih =>
      intro parent
      rw [SyntaxTree.fold_node]
      have hchildren : ∀ child ∈ (children.map fun tree =>
          (tree, tree.fold (visitScope doc body))).map
            (fun child => (child.1, child.2 (.node info children))),
          Emits Edit.IsPlain child.2 := by
        intro child hc
        rw [List.map_map] at hc
        obtain ⟨tree, ht, rfl⟩ := List.mem_map.mp hc
        exact ih tree ht _
      have hwalk := emits_walkAll hchildren
      refine Emits.ite (hwalk.bind fun _ => (emits_planNamed doc _).ite (emits_pure _)) ?_
      refine Emits.ite (emits_planNamed doc _) ?_
      refine Emits.ite (emits_visitDeclaration doc hchildren _ _) ?_
      refine Emits.ite (emits_visitDeclarator doc hchildren _) ?_
      refine Emits.ite (hwalk.bind fun _ => emits_qualifying.bind fun _ =>
        Emits.ite (Emits.forM fun child _ => emits_planProperty doc child) (emits_pure _)) ?_
      refine Emits.ite (hwalk.bind fun _ => emits_qualifying.bind fun _ =>
        Emits.ite (Emits.forM fun child _ => emits_planQualified doc child) (emits_pure _)) ?_
      refine Emits.ite (emits_visitDefault hchildren _) ?_
      refine Emits.ite (emits_visitForIn doc hchildren _) ?_
      exact Emits.ite (emits_pure _) hwalk
  exact (hvisit body body).bind fun _ => emits_planReturn doc body

end Plain

/-! ### Both passes -/

def plannedEdits (plan : Document → SyntaxTree → Planner Unit) (source : MappedText)
    (tree : SyntaxTree) : List Edit :=
  match Document.read source tree with
  | .error _ => []
  | .ok doc =>
    match doc.wrappedBody source with
    | .error _ => []
    | .ok body => ((plan doc body).run.run {}).2.edits

/-- A pass that gives a text has made all the edits that it planned. -/
theorem editBody_ok {plan : Document → SyntaxTree → Planner Unit} {source out : MappedText}
    {tree : SyntaxTree} (h : editBody plan source tree = .ok out) :
    out = ((EditBuffer.ofText source).after (plannedEdits plan source tree)).flush := by
  cases hread : Document.read source tree with
  | error e =>
    rw [editBody, hread] at h
    cases h
  | ok doc =>
    cases hbody : doc.wrappedBody source with
    | error e =>
      simp only [editBody, hread, hbody] at h
      cases h
    | ok body =>
      simp only [editBody, hread, hbody] at h
      cases hrun : (plan doc body).run.run {} with
      | mk outcome state =>
        simp only [carryOut, hrun] at h
        split at h
        · cases h
        · rename_i buffer hall
          obtain ⟨_, hbuffer⟩ := (EditBuffer.applyAll_ok_iff _ _ _).mp hall
          cases outcome with
          | error e => cases h
          | ok u =>
            cases h
            simp only [plannedEdits, hread, hbody, hrun, hbuffer]

theorem editBody_traced {plan : Document → SyntaxTree → Planner Unit}
    (hplan : ∀ doc body, Emits Edit.IsPlain (plan doc body)) {source out : MappedText}
    {tree : SyntaxTree} (h : editBody plan source tree = .ok out) :
    ∃ marks, Traced source (Edit.Replaced (plannedEdits plan source tree)) 0 source.length out
      marks := by
  have hplain : ∀ edit ∈ plannedEdits plan source tree, edit.IsPlain := by
    unfold plannedEdits
    split
    · intro edit he
      cases he
    · split
      · intro edit he
        cases he
      · exact hplan _ _ {} (by intro edit he; cases he)
  rw [editBody_ok h]
  exact Traced.of_flush hplain

/-! ### A whole cell -/

/-- The position `q` is `p` or comes after it, when both are places of one file. -/
def Position.AtOrBefore (p q : Position) : Prop :=
  p.line < q.line ∨ (p.line = q.line ∧ p.column ≤ q.column)

theorem Position.atOrBefore_refl (p : Position) : p.AtOrBefore p := Or.inr ⟨rfl, Nat.le_refl _⟩

theorem Position.atOrBefore_trans {p q r : Position} (h : p.AtOrBefore q) (h' : q.AtOrBefore r) :
    p.AtOrBefore r := by
  unfold AtOrBefore at h h' ⊢
  omega

theorem Position.atOrBefore_next (p : Position) (c : Char) : p.AtOrBefore (p.next c) := by
  unfold AtOrBefore next
  split
  · exact Or.inl (Nat.lt_succ_self _)
  · exact Or.inr ⟨rfl, Nat.le_succ _⟩

theorem Position.atOrBefore_of_mem_tag {p q : Position} {chars : List Char}
    (h : q ∈ (p.tag chars).origins) : p.AtOrBefore q := by
  induction chars generalizing p with
  | nil => cases h
  | cons c rest ih =>
    have hcons : (p.tag (c :: rest)).origins = p :: ((p.next c).tag rest).origins := rfl
    rw [hcons] at h
    rcases List.mem_cons.mp h with rfl | h
    · exact atOrBefore_refl q
    · exact atOrBefore_trans (atOrBefore_next p c) (ih h)

theorem Position.pairwise_origins_tag (p : Position) (chars : List Char) :
    (p.tag chars).origins.Pairwise Position.AtOrBefore := by
  induction chars generalizing p with
  | nil => exact List.Pairwise.nil
  | cons c rest ih =>
    have hcons : (p.tag (c :: rest)).origins = p :: ((p.next c).tag rest).origins := rfl
    rw [hcons, List.pairwise_cons]
    exact ⟨fun q hq => atOrBefore_trans (atOrBefore_next p c) (atOrBefore_of_mem_tag hq),
      ih (p.next c)⟩

theorem MappedText.origins_append (a b : MappedText) :
    MappedText.origins (a ++ b) = a.origins ++ b.origins := List.filterMap_append

theorem MappedText.Untagged.origins_eq {text : MappedText} (h : text.Untagged) :
    text.origins = [] := List.filterMap_eq_nil_iff.mpr h

theorem origins_wrapCell (source : MappedText) (id : Int) (name : Option String) :
    (wrapCell source id name).origins = source.origins := by
  simp only [wrapCell, MappedText.origins_append,
    (MappedText.untagged_ofChars (wrapperHeader id)).origins_eq,
    (MappedText.untagged_ofChars (wrapperFooter name)).origins_eq, List.nil_append,
    List.append_nil]

theorem origins_finishedSource (id : Nat) (edited : MappedText) :
    (finishedSource id edited).origins = edited.origins := by
  have hmarker : (MappedText.ofString (sourceUrlMarker id)).origins = [] :=
    (MappedText.untagged_ofChars _).origins_eq
  rw [finishedSource, MappedText.origins_append, hmarker, List.append_nil]

def History.nextFile (history : History) (code : String) (name : Option String) : SourceFile :=
  { id := history.nextId.1, name, text := code }

theorem transpileCell_ok {trees : TreeSource} {history : History} {code : String}
    {name : Option String} {record : CellRecord}
    (h : (transpileCell trees history code name).result = .ok record) :
    ∃ tree tree' imported moved,
      applyImportPass (wrapCell (history.nextFile code name).mapped history.nextId.1 name) tree =
        .ok imported ∧
      applyScopePass imported tree' = .ok moved ∧
      record = CellRecord.ofSource history.nextId.1 name
        (finishedSource history.nextId.1 moved) := by
  unfold transpileCell at h
  simp only at h
  split at h
  · cases h
  · rename_i imported himport
    split at h
    · cases h
    · rename_i moved hscope
      cases h
      exact ⟨_, _, imported, moved, himport, hscope, rfl⟩

theorem transpileCell_origins {trees : TreeSource} {history : History} {code : String}
    {name : Option String} {record : CellRecord}
    (h : (transpileCell trees history code name).result = .ok record) :
    (∀ p ∈ record.source.origins, p ∈ (history.nextFile code name).mapped.origins) ∧
      record.source.origins.Pairwise Position.AtOrBefore := by
  obtain ⟨tree, tree', imported, moved, himport, hscope, rfl⟩ := transpileCell_ok h
  obtain ⟨marks, hm⟩ := editBody_traced emits_planImports himport
  obtain ⟨marks', hm'⟩ := editBody_traced emits_planScope hscope
  have hsource : (CellRecord.ofSource history.nextId.1 name
      (finishedSource history.nextId.1 moved)).source.origins = moved.origins :=
    origins_finishedSource _ _
  rw [hsource]
  constructor
  · intro p hp
    have hwrapped := hm.origins_subset p (hm'.origins_subset p hp)
    rw [origins_wrapCell] at hwrapped
    exact hwrapped
  · refine hm'.pairwise_origins Position.atOrBefore_refl ?_
    refine hm.pairwise_origins Position.atOrBefore_refl ?_
    rw [origins_wrapCell]
    exact Position.pairwise_origins_tag _ _

/-- Provenance is exact in both passes, whatever the tree, and through a whole cell. -/
theorem passes_keep_provenance :
    (∀ source tree out, applyImportPass source tree = .ok out →
      ∃ marks, Traced source (Edit.Replaced (plannedEdits planImports source tree)) 0 source.length
        out marks) ∧
    (∀ source tree out, applyScopePass source tree = .ok out →
      ∃ marks, Traced source (Edit.Replaced (plannedEdits planScope source tree)) 0 source.length
        out marks) ∧
    (∀ trees history code name record, (transpileCell trees history code name).result = .ok record →
      (∀ p ∈ record.source.origins, p ∈ (history.nextFile code name).mapped.origins) ∧
        record.source.origins.Pairwise Position.AtOrBefore) :=
  ⟨fun _ _ _ h => editBody_traced emits_planImports h,
    fun _ _ _ h => editBody_traced emits_planScope h,
    fun _ _ _ _ _ h => transpileCell_origins h⟩

def defaultImport : SyntaxTree :=
  .ofBlock 19 1 19 [.node { kind := "import_statement", start := 2, stop := 18 }
    [.node { kind := "import_clause", start := 9, stop := 10 } [.leaf "identifier" 9 10],
      .leaf "string" 15 18 "source"]]

def varWithoutValue : SyntaxTree :=
  .ofBlock 8 1 8 [.node { kind := "variable_declaration", start := 2, stop := 7 }
    [.token "var" 2 5 "kind",
      .node { kind := "variable_declarator", start := 6, stop := 7 } [.leaf "identifier" 6 7 "name"]]]

/-- One tree for both readings of the wrapped cell `a`. -/
def singleName : TreeSource :=
  let tree := .ofBlock 80 56 61
    [.node { kind := "expression_statement", start := 58, stop := 59 } [.leaf "identifier" 58 59]]
  { prepared := [tree, tree], grammar := fun _ => tree }

theorem passes_keep_provenance_applied :
    (∃ out, applyImportPass (.ofString "f\x7bimport a from'm'\x7d") defaultImport = .ok out ∧
      out.chars = "f\x7bvar \x7b_:\x7bdefault:a\x7d\x7d = \x7b_:await __import('m')\x7d;\x7d".toList ∧
      ∃ marks, Traced (.ofString "f\x7bimport a from'm'\x7d")
        (Edit.Replaced (plannedEdits planImports (.ofString "f\x7bimport a from'm'\x7d") defaultImport))
        0 19 out marks) ∧
    (∃ out, applyScopePass (.ofString "f\x7bvar a\x7d") varWithoutValue = .ok out ∧
      out.chars = "f\x7bvoid ((__global.a = undefined))\x7d".toList ∧
      ∃ marks, Traced (.ofString "f\x7bvar a\x7d")
        (Edit.Replaced (plannedEdits planScope (.ofString "f\x7bvar a\x7d") varWithoutValue))
        0 8 out marks) ∧
    ∃ record, (transpileCell singleName {} "a" none).result = .ok record ∧
      record.source.origins = [⟨History.nextFile {} "a" none, 0, 0⟩] ∧
      record.source.origins.Pairwise Position.AtOrBefore :=
  ⟨⟨_, rfl, rfl, passes_keep_provenance.1 _ defaultImport _ rfl⟩,
    ⟨_, rfl, rfl, passes_keep_provenance.2.1 _ varWithoutValue _ rfl⟩,
    ⟨_, rfl, rfl, (passes_keep_provenance.2.2 singleName {} "a" none _ rfl).2⟩⟩

end NotebookCell
