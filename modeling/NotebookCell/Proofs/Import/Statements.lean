import NotebookCell.Proofs.Import.Clauses

/-!
# Imports one by one

The edits of an import are its frame, which replaces what stands around the bindings and the
specifier, and after it the edits of the bindings.
-/

namespace NotebookCell

open Planner

variable {doc : Document} {source : MappedText} {node : SyntaxTree} {lo hi place stop : Nat}
  {bindings : List SyntaxTree}

theorem Document.Spread.row (h : doc.Spread lo hi bindings) (hcov : ∀ b ∈ bindings, doc.Covers b) :
    doc.Row lo hi bindings := by
  induction bindings generalizing lo with
  | nil => exact Nat.le_of_lt h
  | cons binding rest ih =>
    obtain ⟨hlt, hrest⟩ := h
    exact ⟨hcov binding List.mem_cons_self, Nat.le_of_lt hlt,
      ih hrest fun b hb => hcov b (List.mem_cons_of_mem binding hb)⟩

theorem Document.Spread.lt (h : doc.Spread lo hi bindings) (hcov : ∀ b ∈ bindings, doc.Covers b) :
    lo < hi := by
  cases bindings with
  | nil => exact h
  | cons binding rest =>
    have hrow := h.2.row fun b hb => hcov b (List.mem_cons_of_mem binding hb)
    have hle := hrow.le
    have hlt := (hcov binding List.mem_cons_self).2.2
    have hfirst := h.1
    omega

/-! ### The frame -/

/-- The edits around the bindings, from `place` up to the specifier at `stop`. -/
def frameEdits (doc : Document) (stop : Nat) (opening : List Char) :
    (place : Nat) → (front : List Char) → List SyntaxTree → List Edit
  | place, _, [] => [.replace place stop (.plain opening)]
  | place, front, binding :: rest =>
    .replace place (doc.first binding) (.plain front) ::
      frameEdits doc stop opening (doc.past binding) [','] rest

theorem frameEdits_within (hspread : doc.Spread place stop bindings)
    (hcov : ∀ b ∈ bindings, doc.Covers b) (opening front : List Char) :
    Edit.AllWithin place stop (frameEdits doc stop opening place front bindings) := by
  induction bindings generalizing place front with
  | nil =>
    have hlt : place < stop := hspread
    apply Edit.allWithin_singleton
    simp only [Edit.Within]
    omega
  | cons binding rest ih =>
    obtain ⟨hlt, hspreadRest⟩ := hspread
    have hcovRest : ∀ b ∈ rest, doc.Covers b := fun b hb => hcov b (List.mem_cons_of_mem binding hb)
    have hltBinding := (hcov binding List.mem_cons_self).2.2
    have hltRest := hspreadRest.lt hcovRest
    have hhead : (Edit.replace place (doc.first binding) (.plain front)).Within place stop := by
      simp only [Edit.Within]
      omega
    have htail := (ih hspreadRest hcovRest [',']).mono (by omega : place ≤ doc.past binding)
      (Nat.le_refl stop)
    exact (Edit.allWithin_singleton hhead).append htail

/-- Three ranges side by side, the edits of the last one before and after those of the second. -/
theorem Edit.patch_three (source : MappedText) {a b : Nat} (hlo : lo ≤ a) (hab : a ≤ b)
    (hhi : b ≤ hi) {front inner outer rest : List Edit} (hfront : AllWithin lo a front)
    (houter : AllWithin b hi outer) (hinner : AllWithin a b inner) (hrest : AllWithin b hi rest) :
    patch source (front ++ (outer ++ (inner ++ rest))) lo hi =
      patch source front lo a ++ (patch source inner a b ++ patch source (outer ++ rest) b hi) := by
  have hback : AllWithin a hi (outer ++ (inner ++ rest)) :=
    (houter.mono hab (Nat.le_refl hi)).append
      ((hinner.mono (Nat.le_refl a) hhi).append (hrest.mono hab (Nat.le_refl hi)))
  have hswap := (houter.agree_comm hinner (Or.inr (Nat.le_refl b))).append (agree_refl a hi rest)
  rw [List.append_assoc, List.append_assoc] at hswap
  rw [patch_split source hlo (Nat.le_trans hab hhi) hfront hback, hswap.patch_eq source,
    patch_split source hab hhi hinner (houter.append hrest)]

theorem patch_frame {own : SyntaxTree → List Edit} (hspread : doc.Spread place stop bindings)
    (hcov : ∀ b ∈ bindings, doc.Covers b) (hown : ∀ b ∈ bindings, doc.InNode b (own b))
    (htext : ∀ b ∈ bindings,
      Edit.patch source (own b) (doc.first b) (doc.past b) = bindingText doc source b)
    (opening front : List Char) :
    Edit.patch source (frameEdits doc stop opening place front bindings ++ bindings.flatMap own)
        place stop =
      joinedText doc source stop opening place front bindings := by
  induction bindings generalizing place front with
  | nil =>
    have hlt : place < stop := hspread
    rw [joinedText, source.inPlace_eq hlt]
    exact Edit.patch_replace source [] (.plain opening) hlt
  | cons binding rest ih =>
    obtain ⟨hlt, hspreadRest⟩ := hspread
    have hcovRest : ∀ b ∈ rest, doc.Covers b := fun b hb => hcov b (List.mem_cons_of_mem binding hb)
    have hownRest : ∀ b ∈ rest, doc.InNode b (own b) := fun b hb =>
      hown b (List.mem_cons_of_mem binding hb)
    have hltBinding := (hcov binding List.mem_cons_self).2.2
    have hltRest := hspreadRest.lt hcovRest
    have hrow := hspreadRest.row hcovRest
    have hgap : Edit.AllWithin place (doc.first binding)
        [.replace place (doc.first binding) (.plain front)] := by
      apply Edit.allWithin_singleton
      simp only [Edit.Within]
      omega
    have hstep := Edit.patch_three source (Nat.le_of_lt hlt) (Nat.le_of_lt hltBinding)
      (Nat.le_of_lt hltRest) hgap (frameEdits_within hspreadRest hcovRest opening [','])
      (hown binding List.mem_cons_self) ((Document.over_flatMap hrow hownRest).allWithin hrow)
    have hfront : Edit.patch source [.replace place (doc.first binding) (.plain front)] place
        (doc.first binding) = source.inPlace place (doc.first binding) front := by
      rw [source.inPlace_eq hlt]
      exact Edit.patch_replace source [] (.plain front) hlt
    rw [hfront, htext binding List.mem_cons_self, ih hspreadRest hcovRest hownRest
      (fun b hb => htext b (List.mem_cons_of_mem binding hb)) [',']] at hstep
    rw [joinedText, List.append_assoc]
    exact hstep

/-! ### The whole statement -/

def innerEdits (doc : Document) (node : SyntaxTree) : List Edit :=
  (node.constructs.filter fun child => child.kind == "import_clause").flatMap (clauseEdits doc)

def importEdits (doc : Document) (node : SyntaxTree) : List Edit :=
  match node.specifier with
  | some specifier =>
    frameEdits doc (doc.first specifier) (importOpening node) (doc.first node) "var \x7b".toList
        (importBindings node) ++
      .replace (doc.past specifier) (doc.past node) (.plain (importClosing node)) ::
        innerEdits doc node
  | none => []

/-- An import, with all nodes in it and its specifier. -/
structure IsStatement (doc : Document) (node specifier : SyntaxTree) : Prop where
  kind : node.kind = "import_statement"
  covers : doc.Covers node
  shaped : ∀ part ∈ node.nodes, doc.ImportShaped part
  specified : node.specifier = some specifier

namespace IsStatement

variable {specifier child binding : SyntaxTree} (h : IsStatement doc node specifier)

include h

theorem shaped_self : doc.ImportShaped node := h.shaped node (SyntaxTree.mem_nodes_self node)

theorem isImport : doc.IsImport node := h.shaped_self.statement h.kind

theorem spread : doc.Spread (doc.first node) (doc.first specifier) (importBindings node) :=
  h.isImport.spread specifier h.specified

theorem specifier_in : doc.Covers specifier ∧ doc.past specifier ≤ doc.past node := by
  have hsome := h.specified
  unfold SyntaxTree.specifier at hsome
  split at hsome
  · rename_i source hsource
    cases hsome
    obtain ⟨hcov, _, hhi⟩ := h.shaped_self.ordered.mem (SyntaxTree.mem_children_of_child? hsource)
    exact ⟨hcov, hhi⟩
  · obtain ⟨clause, hclause, hsource⟩ := Option.bind_eq_some_iff.mp hsome
    have hin := SyntaxTree.mem_children_of_mem_constructs (List.mem_of_find?_eq_some hclause)
    obtain ⟨_, _, hhiClause⟩ := h.shaped_self.ordered.mem hin
    have hshaped := h.shaped clause
      (SyntaxTree.mem_nodes_of_child hin (SyntaxTree.mem_nodes_self clause))
    obtain ⟨hcov, _, hhi⟩ := hshaped.ordered.mem (SyntaxTree.mem_children_of_child? hsource)
    exact ⟨hcov, Nat.le_trans hhi hhiClause⟩

theorem isClause (hc : child ∈ node.constructs) (hk : child.kind = "import_clause") :
    IsClause doc child := by
  have hin := SyntaxTree.mem_children_of_mem_constructs hc
  exact ⟨hk, (h.shaped_self.ordered.mem hin).1,
    fun part hp => h.shaped part (SyntaxTree.mem_nodes_of_child hin hp), h.isImport.closed child hc⟩

theorem isClause_of_filter
    (hc : child ∈ node.constructs.filter fun child => child.kind == "import_clause") :
    IsClause doc child := by
  obtain ⟨hc, hk⟩ := List.mem_filter.mp hc
  exact h.isClause hc (beq_iff_eq.mp hk)

theorem row_clauses : doc.Row (doc.first node) (doc.past node)
    (node.constructs.filter fun child => child.kind == "import_clause") :=
  (h.shaped_self.ordered.filter SyntaxTree.isConstruct).filter _

theorem row : doc.Row (doc.first node) (doc.past node) (importBindings node) :=
  h.row_clauses.flatMap fun _ hc => (h.isClause_of_filter hc).row

theorem shaped_binding (hb : binding ∈ importBindings node) :
    doc.ImportShaped binding ∧ binding.kind ∈ importedKinds := by
  obtain ⟨clause, hc, hb⟩ := List.mem_flatMap.mp hb
  exact (h.isClause_of_filter hc).shaped_binding hb

theorem over_bindings :
    doc.Over (importBindings node) (allBindingEdits doc) (innerEdits doc node) :=
  Document.over_nested h.row_clauses (fun _ hc => (h.isClause_of_filter hc).row)
    fun _ hc => (h.isClause_of_filter hc).over_bindings

theorem covers_binding : ∀ b ∈ importBindings node, doc.Covers b := fun _ hb => (h.row.mem hb).1

theorem within_binding : ∀ b ∈ importBindings node, doc.InNode b (allBindingEdits doc b) := by
  intro b hb
  have hcov := h.covers_binding b hb
  obtain ⟨hshaped, hk⟩ := h.shaped_binding hb
  exact (defaultEdits_within hcov).append (bindingEdits_within hcov hshaped hk)

theorem innerEdits_within :
    Edit.AllWithin (doc.first node) (doc.first specifier) (innerEdits doc node) :=
  h.over_bindings.allWithin (h.spread.row h.covers_binding)

theorem patch_opening (source : MappedText) :
    Edit.patch source
        (frameEdits doc (doc.first specifier) (importOpening node) (doc.first node)
          "var \x7b".toList (importBindings node) ++ innerEdits doc node)
        (doc.first node) (doc.first specifier) =
      joinedText doc source (doc.first specifier) (importOpening node) (doc.first node)
        "var \x7b".toList (importBindings node) := by
  have hagree := (Edit.agree_refl (doc.first node) (doc.first specifier)
    (frameEdits doc (doc.first specifier) (importOpening node) (doc.first node) "var \x7b".toList
      (importBindings node))).append
    (h.over_bindings.agree_flatMap h.row h.within_binding (doc.first node) (doc.first specifier))
  rw [hagree.patch_eq source]
  apply patch_frame h.spread h.covers_binding h.within_binding
  intro b hb
  obtain ⟨hshaped, hk⟩ := h.shaped_binding hb
  exact patch_binding (h.covers_binding b hb) hshaped hk source

/-! ### The walk into a statement -/

theorem runs_importSpecifierOf (flag : Bool) :
    (importSpecifierOf doc node).Runs flag (some specifier) [] flag := by
  have hsome := h.specified
  unfold SyntaxTree.specifier at hsome
  unfold importSpecifierOf
  cases hsource : node.child? "source" with
  | some source =>
    rw [hsource] at hsome
    cases hsome
    exact runs_pure _ flag
  | none =>
    rw [hsource] at hsome
    obtain ⟨clause, hclause, hsource⟩ := Option.bind_eq_some_iff.mp hsome
    simp only [hclause, hsource]
    exact runs_pure _ flag

theorem walk_children (flag : Bool) :
    (node.constructs.forM fun child => child.fold (visitImports doc)).Plans flag
      (innerEdits doc node) := by
  have hall : ∀ child ∈ node.constructs, (child.fold (visitImports doc)).Plans flag
      (if child.kind == "import_clause" then clauseEdits doc child else []) := by
    intro child hc
    by_cases hk : child.kind = "import_clause"
    · rw [hk, beq_self_eq_true, if_pos rfl]
      exact (h.isClause hc hk).walk flag
    · have hheld : child.kind ∉ heldKinds := by
        intro hmem
        have hplace := mem_importPlaces h.shaped_self hc hmem
        rw [h.kind] at hplace
        simp only [Document.importPlaces, List.mem_cons, List.not_mem_nil, or_false, Prod.mk.injEq,
          String.reduceEq, and_false, and_true, or_false] at hplace
        exact hk hplace
      have hin := SyntaxTree.mem_children_of_mem_constructs hc
      rw [if_neg (by rw [beq_iff_eq]; exact hk)]
      exact walk_quiet (fun part hp => h.shaped part (SyntaxTree.mem_nodes_of_child hin hp))
        (h.isImport.closed child hc) hheld flag
  have hruns := runs_forM hall
  rw [flatMap_eq_of_filter (p := fun child => child.kind == "import_clause") fun child _ hno => by
    rw [hno, if_neg Bool.false_ne_true],
    List.flatMap_congr fun child hc => if_pos (List.mem_filter.mp hc).2] at hruns
  exact hruns

end IsStatement

theorem runs_joinBindings {current : SyntaxTree} {rest : List SyntaxTree}
    (hcov : ∀ b ∈ current :: rest, doc.Covers b) {next : SyntaxTree → Planner Unit} {flag : Bool}
    {opening : List Char} {edits : List Edit} (hnext : ∀ last, doc.Covers last →
      (next last).Plans flag (.replace (doc.past last) stop (.plain opening) :: edits)) :
    (joinBindings doc current rest >>= next).Plans flag
      (frameEdits doc stop opening (doc.past current) [','] rest ++ edits) := by
  have hcovCurrent := hcov current List.mem_cons_self
  induction rest generalizing current with
  | nil =>
    have hlast := Runs.bind (runs_pure current flag) (hnext current hcovCurrent)
    exact hlast
  | cons binding rest ih =>
    have hcovRest : ∀ b ∈ binding :: rest, doc.Covers b := fun b hb =>
      hcov b (List.mem_cons_of_mem current hb)
    have hcovBinding := hcovRest binding List.mem_cons_self
    rw [joinBindings]
    simp only [bind_assoc]
    exact Runs.replace_then hcovCurrent.stop_eq hcovBinding.start_eq [',']
      (ih hcovRest hcovBinding)

namespace IsStatement

variable {specifier : SyntaxTree} (h : IsStatement doc node specifier)

include h

theorem runs_planImportStatement (flag : Bool) : (planImportStatement doc node).Plans flag
    (frameEdits doc (doc.first specifier) (importOpening node) (doc.first node) "var \x7b".toList
        (importBindings node) ++
      [.replace (doc.past specifier) (doc.past node) (.plain (importClosing node))]) := by
  obtain ⟨hcovSpecifier, _⟩ := h.specifier_in
  have hclose := fun closing => runs_replace hcovSpecifier.stop_eq h.covers.stop_eq closing flag
  have hcov := h.covers_binding
  unfold planImportStatement
  apply Runs.bind (h.runs_importSpecifierOf flag)
  unfold importOpening importClosing
  cases hbindings : importBindings node with
  | nil => exact Runs.replace_then h.covers.start_eq hcovSpecifier.start_eq _ (hclose _)
  | cons first rest =>
    rw [hbindings] at hcov
    have hjoin := runs_joinBindings hcov fun last hlast =>
      Runs.replace_then hlast.stop_eq hcovSpecifier.start_eq
        ("\x7d = \x7b_:await " ++ importName ++ "(").toList (hclose ")\x7d;".toList)
    exact Runs.replace_then h.covers.start_eq (hcov first List.mem_cons_self).start_eq _ hjoin

theorem walk (flag : Bool) : (node.fold (visitImports doc)).Plans flag (importEdits doc node) := by
  have hall := Plans.seq (h.runs_planImportStatement flag) (h.walk_children flag)
  rw [List.append_assoc] at hall
  rw [walk_statement h.kind]
  unfold importEdits
  rw [h.specified]
  exact hall

end IsStatement

end NotebookCell
