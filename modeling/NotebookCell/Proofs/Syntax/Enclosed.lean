import NotebookCell.Proofs.Pass.Bodies
import NotebookCell.Proofs.Syntax.Faithful

/-!
# The parts of a wrapper function

A body that is found in a faithful tree is that of a function with nothing around it but comments and
punctuation. So its text falls into the parts of a wrapper, and every character of a part that is no
separator is in a leaf of that part.
-/

namespace NotebookCell

variable {doc : Document} {source : MappedText} {body node inner : SyntaxTree}

/-! ### The leaves around a function -/

namespace Document

def IsBeside (doc : Document) (leaf : SyntaxTree) : Prop :=
  SyntaxTree.isExtraKind leaf.kind ∨ doc.spelling leaf ∈ [[';'], ['('], [')']]

theorem IsBeside.isExtraKind {leaf : SyntaxTree} {c : Char} (h : doc.IsBeside leaf)
    (hin : c ∈ doc.spelling leaf) (hc : c ∉ [';', '(', ')']) : SyntaxTree.isExtraKind leaf.kind := by
  rcases h with hextra | htoken
  · exact hextra
  · exfalso
    apply hc
    simp only [List.mem_cons, List.not_mem_nil, or_false] at htoken ⊢
    rcases htoken with htoken | htoken | htoken
    · exact Or.inl (List.mem_singleton.mp (htoken ▸ hin))
    · exact Or.inr (Or.inl (List.mem_singleton.mp (htoken ▸ hin)))
    · exact Or.inr (Or.inr (List.mem_singleton.mp (htoken ▸ hin)))

/-- The leaves of one node are those of another one between comments and punctuation. -/
def Around (doc : Document) (outer inner : SyntaxTree) : Prop :=
  ∃ before after, outer.leaves = before ++ (inner.leaves ++ after) ∧
    (∀ leaf ∈ before, doc.IsBeside leaf) ∧ ∀ leaf ∈ after, doc.IsBeside leaf

theorem around_self (doc : Document) (node : SyntaxTree) : doc.Around node node := by
  refine ⟨[], [], ?_, List.forall_mem_nil _, List.forall_mem_nil _⟩
  rw [List.append_nil, List.nil_append]

theorem Around.trans {outer : SyntaxTree} (h : doc.Around outer node) (h' : doc.Around node inner) :
    doc.Around outer inner := by
  obtain ⟨before, after, hleaves, hbefore, hafter⟩ := h
  obtain ⟨before', after', hleaves', hbefore', hafter'⟩ := h'
  refine ⟨before ++ before', after' ++ after, ?_, List.forall_mem_append.mpr ⟨hbefore, hbefore'⟩,
    List.forall_mem_append.mpr ⟨hafter', hafter⟩⟩
  rw [hleaves, hleaves']
  simp only [List.append_assoc]

/-- A node around the wrapper function has the leaves of its one part, and beside them comments and
punctuation. -/
theorem Parsed.around (h : doc.Parsed node) (entry : String × List (List Char))
    (hentry : entry ∈ enclosingTokens) (hk : node.kind = entry.1) (hone : node.constructs = [inner]) :
    doc.Around node inner := by
  have hbeside : ∀ child ∈ node.children, child.isConstruct = false →
      child.children = [] ∧ doc.IsBeside child := by
    intro child hc hno
    rcases h.enclosing entry hentry hk child hc with hyes | ⟨hleaf, hextra | htoken⟩
    · rw [hno] at hyes
      cases hyes
    · exact ⟨hleaf, Or.inl hextra⟩
    · refine ⟨hleaf, Or.inr ?_⟩
      simp only [enclosingTokens, List.mem_cons, List.not_mem_nil, or_false] at hentry
      rcases hentry with rfl | rfl | rfl
      · cases htoken
      · exact List.mem_cons.mpr (Or.inl (List.mem_singleton.mp htoken))
      · exact List.mem_cons_of_mem _ htoken
  obtain ⟨before, after, hchildren, hbefore, _, hafter⟩ := List.filter_eq_cons_iff.mp hone
  have hbefore' : ∀ child ∈ before, child.children = [] ∧ doc.IsBeside child := fun child hc =>
    hbeside child (by rw [hchildren]; exact List.mem_append_left _ hc)
      (Bool.eq_false_iff.mpr (hbefore child hc))
  have hafter' : ∀ child ∈ after, child.children = [] ∧ doc.IsBeside child := fun child hc =>
    hbeside child (by rw [hchildren]; exact List.mem_append_right _ (List.mem_cons_of_mem _ hc))
      (Bool.eq_false_iff.mpr (List.filter_eq_nil_iff.mp hafter child hc))
  have hin : inner ∈ node.children := by
    rw [hchildren]
    exact List.mem_append_right _ List.mem_cons_self
  refine ⟨before, after, ?_, fun leaf hl => (hbefore' leaf hl).2, fun leaf hl => (hafter' leaf hl).2⟩
  rw [SyntaxTree.leaves_of_inner hin, hchildren, List.flatMap_append, List.flatMap_cons,
    SyntaxTree.flatMap_leaves fun child hc => (hbefore' child hc).1,
    SyntaxTree.flatMap_leaves fun child hc => (hafter' child hc).1]

theorem constructs_of_firstConstruct (h : node.firstConstruct = .ok inner)
    (hone : node.constructs.length = 1) : node.constructs = [inner] := by
  unfold SyntaxTree.firstConstruct at h
  obtain ⟨part, hpart⟩ := List.length_eq_one_iff.mp hone
  rw [hpart] at h ⊢
  cases h
  rfl

theorem mem_children_of_constructs (h : node.constructs = [inner]) :
    inner ∈ node.children ∧ inner.isConstruct = true := by
  have hin : inner ∈ node.constructs := by
    rw [h]
    exact List.mem_singleton_self inner
  exact List.mem_filter.mp hin

theorem Faithful.unparenthesized_around (h : doc.Faithful) {depth : Nat}
    (hin : node ∈ doc.root.nodes) (hconstruct : node.isConstruct = true)
    (hopen : unparenthesized depth node = .ok inner) :
    doc.Around node inner ∧ inner ∈ doc.root.nodes ∧ inner.isConstruct = true := by
  induction depth generalizing node with
  | zero =>
    cases hopen
    exact ⟨around_self doc inner, hin, hconstruct⟩
  | succ depth ih =>
    rw [unparenthesized] at hopen
    split at hopen
    · rename_i hk
      have hkind := beq_iff_eq.mp hk
      obtain ⟨part, hpart, hrest⟩ := ok_of_bind hopen
      have hparsed := h.parsed node hin
      have hone := constructs_of_firstConstruct hpart (hparsed.single (Or.inr hkind))
      obtain ⟨hc, hpartConstruct⟩ := mem_children_of_constructs hone
      have hpartIn : part ∈ doc.root.nodes :=
        SyntaxTree.nodes_trans hin (SyntaxTree.mem_nodes_of_child hc (SyntaxTree.mem_nodes_self part))
      obtain ⟨haround, hinner⟩ := ih hpartIn hpartConstruct hrest
      exact ⟨(hparsed.around ("parenthesized_expression", [['('], [')']]) (by decide) hkind
        hone).trans haround, hinner⟩
    · cases hopen
      exact ⟨around_self doc inner, hin, hconstruct⟩

theorem Faithful.exists_function (h : doc.Faithful) (hbody : doc.wrappedBody source = .ok body) :
    ∃ function ∈ doc.root.nodes, doc.Around doc.root function ∧ doc.IsFunction function ∧
      function.child? "body" = some body ∧ body.kind = "statement_block" := by
  have hroot := h.parsed doc.root (SyntaxTree.mem_nodes_self _)
  have hblock := kind_of_wrappedBody hbody
  unfold Document.wrappedBody at hbody
  split at hbody
  · rename_i statement hone
    split at hbody
    · rename_i hstatement
      have hkind := beq_iff_eq.mp hstatement
      obtain ⟨expression, hexpression, hbody⟩ := ok_of_bind hbody
      obtain ⟨part, hpart, hopen⟩ := ok_of_bind (ok_of_ofTree hexpression)
      obtain ⟨hc, _⟩ := mem_children_of_constructs hone
      have hin : statement ∈ doc.root.nodes :=
        SyntaxTree.mem_nodes_of_child hc (SyntaxTree.mem_nodes_self statement)
      have hparsed := h.parsed statement hin
      have hpartOne := constructs_of_firstConstruct hpart (hparsed.single (Or.inl hkind))
      obtain ⟨hcPart, hpartConstruct⟩ := mem_children_of_constructs hpartOne
      have hpartIn : part ∈ doc.root.nodes := SyntaxTree.nodes_trans hin
        (SyntaxTree.mem_nodes_of_child hcPart (SyntaxTree.mem_nodes_self part))
      obtain ⟨haround, hinner, hconstruct⟩ := h.unparenthesized_around hpartIn hpartConstruct hopen
      split at hbody
      · rename_i hfunction
        split at hbody
        · cases hbody
        · rename_i found hfound
          split at hbody
          · cases hbody
            have htop := hroot.around ("program", []) (by decide) h.program hone
            have hmiddle := hparsed.around ("expression_statement", [[';']]) (by decide)
              hkind hpartOne
            exact ⟨expression, hinner, (htop.trans hmiddle).trans haround,
              (h.parsed expression hinner).function hconstruct hfunction, hfound, hblock⟩
          · cases hbody
      · obtain ⟨_, _, hbody⟩ := ok_of_bind hbody
        cases hbody
    · cases hbody
  · obtain ⟨_, _, hbody⟩ := ok_of_bind hbody
    cases hbody
  · cases hbody

/-- The children of a function: words, its parameters, comments, and its body. -/
theorem IsFunction.exists_parts (h : doc.IsFunction node) (hbody : node.child? "body" = some body) :
    ∃ words parameters comments, node.children = words ++ parameters :: (comments ++ [body]) ∧
      words ≠ [] ∧ parameters.kind = "formal_parameters" ∧
      (∀ child ∈ words, child.children = [] ∧
        (SyntaxTree.isExtraKind child.kind ∨ '(' ∉ doc.spelling child)) ∧
      ∀ child ∈ comments, IsExtra child := by
  have hcut : node.heading ++ node.signature = node.children := List.takeWhile_append_dropWhile
  obtain ⟨last, hlast, hfield⟩ := (Option.any_eq_true _ _).mp h.body
  have hbehind : node.signature.tail.dropLast ++ [last] = node.signature.tail :=
    List.dropLast_append_getLast? last hlast
  obtain ⟨parameters, rest, hsignature⟩ : ∃ parameters rest, node.signature = parameters :: rest := by
    cases hsignature : node.signature with
    | nil =>
      rw [hsignature] at hlast
      cases hlast
    | cons parameters rest => exact ⟨parameters, rest, rfl⟩
  have hparameters : parameters.kind = "formal_parameters" := by
    have hhead := List.head?_dropWhile_not (fun child => child.kind != "formal_parameters")
      node.children
    rw [← SyntaxTree.signature, hsignature] at hhead
    simpa using hhead
  rw [hsignature, List.tail_cons] at hbehind
  have hchildren : node.children =
      node.heading ++ parameters :: (node.signature.tail.dropLast ++ [last]) := by
    rw [hsignature, List.tail_cons, hbehind, ← hsignature, hcut]
  -- the body is the first child with its field, and only the last child has it
  have hsame : last = body := by
    have hfront : node.children.dropLast.find? (SyntaxTree.isField "body") = none :=
      List.find?_eq_none.mpr fun child hc => Bool.eq_false_iff.mp (h.only child hc)
    have hall : node.children = node.children.dropLast ++ [last] := by
      rw [hchildren, ← List.cons_append, ← List.append_assoc, List.dropLast_concat]
    rw [SyntaxTree.child?, hall, List.find?_append, hfront, Option.none_or,
      List.find?_cons_of_pos hfield] at hbody
    exact Option.some.inj hbody
  rw [hsame] at hchildren
  exact ⟨node.heading, parameters, _, hchildren, h.words, hparameters,
    fun child hc => ⟨h.leaves child hc, h.open_ child hc⟩, h.comments⟩

/-! ### Where the parts of the wrapper are -/

/-- What is no separator between two places is in leaves of this sort. -/
def CoveredBy (doc : Document) (sort : SyntaxTree → Prop) (lo hi : Nat) : Prop :=
  ∀ k c, lo ≤ k → k < hi → doc.text[k]? = some c → Script.isSeparator c = false →
    ∃ leaf ∈ doc.root.leaves, sort leaf ∧ lo ≤ doc.first leaf ∧ doc.first leaf ≤ k ∧ k < doc.past leaf

theorem Tiles.coveredBy {lo hi : Nat} {leaves : List SyntaxTree} {sort : SyntaxTree → Prop}
    (h : doc.Tiles lo hi leaves) (hroot : ∀ leaf ∈ leaves, leaf ∈ doc.root.leaves)
    (hsort : ∀ leaf ∈ leaves, sort leaf) : doc.CoveredBy sort lo hi := by
  intro k c hlo hhi hc hseparator
  obtain ⟨leaf, hleaf, hfirst, hpast⟩ := h.exists_covering hlo hhi hc hseparator
  exact ⟨leaf, hroot leaf hleaf, hsort leaf hleaf, (h.row.mem hleaf).2.1, hfirst, hpast⟩

theorem Tiles.first_le {lo hi : Nat} (h : doc.Tiles lo hi node.leaves) (hspans : doc.Spans node) :
    lo ≤ doc.first node ∧ doc.first node < hi ∧
      ∀ leaf ∈ node.leaves, doc.first node ≤ doc.first leaf := by
  obtain ⟨head, rest, hleaves⟩ := List.exists_cons_of_ne_nil node.leaves_ne_nil
  have hhead : doc.first head = doc.first node := hspans.1 head (by rw [hleaves]; rfl)
  rw [hleaves] at h ⊢
  obtain ⟨hcov, hlo, hrest⟩ := h.row
  have hlt := hcov.2.2
  have hhi := hrest.le
  refine ⟨by omega, by omega, fun leaf hleaf => ?_⟩
  rcases List.mem_cons.mp hleaf with rfl | hleaf
  · omega
  · have hle := (hrest.mem hleaf).2.1
    omega

/-- A text cut around the parts of the wrapper function: punctuation up to `opened`, words up to
`headed`, the parameters, comments up to `listed`, the body, and punctuation. -/
structure Cut (doc : Document) (parameters body : SyntaxTree) (opened headed listed : Nat) : Prop where
  before : doc.CoveredBy doc.IsBeside 0 opened
  words : doc.CoveredBy
    (fun leaf => SyntaxTree.isExtraKind leaf.kind ∨ '(' ∉ doc.spelling leaf) opened headed
  lt : opened < headed
  ofParameters : doc.CoveredBy (fun leaf => doc.first parameters ≤ doc.first leaf) headed
    (doc.past parameters)
  parameters_in : headed ≤ doc.first parameters ∧ doc.first parameters < doc.past parameters
  comments : doc.CoveredBy (fun leaf => SyntaxTree.isExtraKind leaf.kind) (doc.past parameters) listed
  listed_le : doc.past parameters ≤ listed
  ofBody : doc.CoveredBy (fun leaf => doc.first body ≤ doc.first leaf) listed (doc.past body)
  body_in : listed ≤ doc.first body ∧ doc.first body < doc.past body
  after : doc.CoveredBy doc.IsBeside (doc.past body) doc.text.length

theorem Faithful.exists_cut (h : doc.Faithful) (hbody : doc.wrappedBody source = .ok body) :
    ∃ parameters opened headed listed, doc.Cut parameters body opened headed listed ∧
      doc.Parsed parameters ∧ parameters.kind = "formal_parameters" ∧
      doc.Parsed body ∧ body.kind = "statement_block" := by
  obtain ⟨function, hin, ⟨before, after, haround, hbefore, hafter⟩, hfunction, hfound, hblock⟩ :=
    h.exists_function hbody
  obtain ⟨words, parameters, comments, hchildren, hne, hkind, hwords, hcomments⟩ :=
    hfunction.exists_parts hfound
  have hinParameters : parameters ∈ function.children := by
    rw [hchildren]
    exact List.mem_append_right _ List.mem_cons_self
  have hinBody : body ∈ function.children := SyntaxTree.mem_children_of_child? hfound
  have hparsed : ∀ child ∈ function.children, doc.Parsed child := fun child hc =>
    h.parsed child (SyntaxTree.nodes_trans hin
      (SyntaxTree.mem_nodes_of_child hc (SyntaxTree.mem_nodes_self child)))
  have hleaves : doc.root.leaves =
      before ++ (words ++ (parameters.leaves ++ (comments ++ (body.leaves ++ after)))) := by
    rw [haround, SyntaxTree.leaves_of_inner hinBody, hchildren, List.flatMap_append,
      List.flatMap_cons, List.flatMap_append, List.flatMap_singleton,
      SyntaxTree.flatMap_leaves fun child hc => (hwords child hc).1,
      SyntaxTree.flatMap_leaves fun child hc => (hcomments child hc).1]
    simp only [List.append_assoc]
  have htiles := h.tiles
  rw [hleaves] at htiles
  -- each split cuts off the leaves of one part
  obtain ⟨opened, hopened, htiles, _⟩ := htiles.split
  obtain ⟨headed, hheaded, htiles, _⟩ := htiles.split
  obtain ⟨closed, hclosed, htiles, hlastParameter⟩ := htiles.split
  obtain ⟨listed, hlisted, htiles, _⟩ := htiles.split
  obtain ⟨ended, hended, hrest, hlastBody⟩ := htiles.split
  have hpastParameters : closed = doc.past parameters := by
    obtain ⟨last, hlast⟩ := List.getLast?_isSome.mpr parameters.leaves_ne_nil |>
      Option.isSome_iff_exists.mp
    rw [← hlastParameter last hlast, (hparsed parameters hinParameters).spans.2 last hlast]
  have hpastBody : ended = doc.past body := by
    obtain ⟨last, hlast⟩ := List.getLast?_isSome.mpr body.leaves_ne_nil |>
      Option.isSome_iff_exists.mp
    rw [← hlastBody last hlast, (hparsed body hinBody).spans.2 last hlast]
  subst hpastParameters hpastBody
  obtain ⟨hloParameters, hhiParameters, hfirstParameters⟩ :=
    hclosed.first_le (hparsed parameters hinParameters).spans
  obtain ⟨hloBody, hhiBody, hfirstBody⟩ := hended.first_le (hparsed body hinBody).spans
  have hmem : ∀ leaf, leaf ∈ doc.root.leaves ↔ leaf ∈ before ∨ leaf ∈ words ∨
      leaf ∈ parameters.leaves ∨ leaf ∈ comments ∨ leaf ∈ body.leaves ∨ leaf ∈ after := by
    intro leaf
    rw [hleaves]
    simp only [List.mem_append]
  refine ⟨parameters, opened, headed, listed, ?_, hparsed parameters hinParameters, hkind,
    hparsed body hinBody, hblock⟩
  exact {
    before := hopened.coveredBy (fun leaf hl => (hmem leaf).mpr (by simp only [hl, true_or])) hbefore
    words := hheaded.coveredBy (fun leaf hl => (hmem leaf).mpr (by simp only [hl, true_or, or_true]))
      fun leaf hl => (hwords leaf hl).2
    lt := by
      obtain ⟨word, rest, rfl⟩ := List.exists_cons_of_ne_nil hne
      obtain ⟨hcov, hlo, hrest⟩ := hheaded.row
      have hlt := hcov.2.2
      have hle := hrest.le
      omega
    ofParameters := hclosed.coveredBy
      (fun leaf hl => (hmem leaf).mpr (by simp only [hl, true_or, or_true])) hfirstParameters
    parameters_in := ⟨hloParameters, hhiParameters⟩
    comments := hlisted.coveredBy
      (fun leaf hl => (hmem leaf).mpr (by simp only [hl, true_or, or_true]))
      fun leaf hl => (hcomments leaf hl).2
    listed_le := hlisted.row.le
    ofBody := hended.coveredBy
      (fun leaf hl => (hmem leaf).mpr (by simp only [hl, true_or, or_true])) hfirstBody
    body_in := ⟨hloBody, hhiBody⟩
    after := hrest.coveredBy
      (fun leaf hl => (hmem leaf).mpr (by simp only [hl, or_true])) hafter }

end Document

end NotebookCell
