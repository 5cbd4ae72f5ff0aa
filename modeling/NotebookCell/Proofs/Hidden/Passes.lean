import NotebookCell.Proofs.Hidden.Runs
import NotebookCell.Proofs.Import.Spelling
import NotebookCell.Proofs.Scope.Pass

/-!
# Hidden nodes do not influence the passes

If the passes end well on two texts that look alike, one template gives both outputs, and what it
leaves free is in hidden nodes. In trees of the grammar's shapes every hidden node comes out as it is,
unless an import is rewritten there.
-/

namespace NotebookCell

open Planner

variable {source₁ source₂ : MappedText} {tree₁ tree₂ body : SyntaxTree}

/-! ### One template for both outputs -/

/-- Both results are texts that one template gives, and only places in hidden nodes are left free in
it. -/
structure FillAlike (doc : Document) (body : SyntaxTree) (source₁ source₂ : MappedText)
    (result₁ result₂ : Except PassError MappedText) (template : List TemplateChar) : Prop where
  first : ∃ out, result₁ = .ok out ∧ Template.fill source₁.chars template = out.chars
  second : ∃ out, result₂ = .ok out ∧ Template.fill source₂.chars template = out.chars
  free : (Template.places template).Sublist
    ((List.range source₁.length).filter (doc.covers body.hidden))

/-- The characters of the node come out one behind the other. -/
def Document.Verbatim (doc : Document) (node : SyntaxTree) (template : List TemplateChar) : Prop :=
  (List.range' (doc.first node) (doc.past node - doc.first node)).map .free <:+: template

/-- In what the template gives, the node's part of the source is in one piece. -/
theorem Document.Verbatim.infix_fill {doc : Document} {node : SyntaxTree}
    {template : List TemplateChar} (h : doc.Verbatim node template) (source : List Char) :
    (source.take (doc.past node)).drop (doc.first node) <:+: Template.fill source template := by
  obtain ⟨front, back, hsplit⟩ := h
  rw [← hsplit, Template.fill_append, Template.fill_append, Template.fill_range]
  exact List.infix_append _ _ _

theorem LookAlike.getElem?_eq (h : LookAlike source₁ source₂ tree₁ tree₂)
    (hbody : (Document.ofTree source₁.chars tree₁).wrappedBody source₁ = .ok body) {k : Nat}
    (hk : (Document.ofTree source₁.chars tree₁).covers body.hidden k = false) :
    source₁.chars[k]? = source₂.chars[k]? := by
  obtain ⟨other, hother, houtline⟩ := h.exists_body hbody
  have hk' : (Document.ofTree source₂.chars tree₂).covers other.hidden k = false := by
    rw [Document.covers_hidden, houtline, ← Document.covers_hidden]
    exact hk
  have htext := (h.readable₁.isView hbody rfl).text.symm.trans
    (h.readable₂.isView hother h.outline.symm).text
  have hat := congrArg (·[k]?) htext
  simp only [Document.blanked, List.getElem?_mapIdx, hk, hk', Bool.false_eq_true, if_false,
    Option.map_id'] at hat
  exact hat

theorem LookAlike.fillAlike (h : LookAlike source₁ source₂ tree₁ tree₂)
    {plan : Document → SyntaxTree → Planner Unit} (hplan : Unaware plan)
    (hbody : (Document.ofTree source₁.chars tree₁).wrappedBody source₁ = .ok body)
    (hsingle₁ : ∀ c ∈ source₁, c.IsSingle) (hsingle₂ : ∀ c ∈ source₂, c.IsSingle) {out : MappedText}
    (hout : editBody plan source₁ tree₁ = .ok out) :
    FillAlike (Document.ofTree source₁.chars tree₁) body source₁ source₂
      (editBody plan source₁ tree₁) (editBody plan source₂ tree₂)
      (Edit.template source₁.chars ((Document.ofTree source₁.chars tree₁).covers body.hidden)
        source₁.length (plannedEdits plan source₁ tree₁)) where
  first := by
    refine ⟨out, hout, ?_⟩
    rw [editBody_ok hout]
    exact Edit.fill_template hsingle₁ (fun _ _ => rfl) _
  second := by
    have halike := h.runAlike hplan
    obtain ⟨other, hother⟩ := halike.exists_ok hout
    refine ⟨other, hother, ?_⟩
    rw [editBody_ok hother, halike.planned, h.length]
    exact Edit.fill_template hsingle₂ (fun k hk => h.getElem?_eq hbody hk) _
  free := Edit.places_template _ _ _ _

theorem verbatim_of_spares {source : MappedText} {tree node : SyntaxTree} {edits : List Edit}
    (hsingle : ∀ c ∈ source, c.IsSingle) (hn : node ∈ body.hidden)
    (hspares : ∀ edit ∈ edits, edit.Spares ((Document.ofTree source.chars tree).first node)
      ((Document.ofTree source.chars tree).past node)) :
    (Document.ofTree source.chars tree).Verbatim node (Edit.template source.chars
      ((Document.ofTree source.chars tree).covers body.hidden) source.length edits) := by
  refine Edit.range_infix_template hspares ?_ ?_
  · rw [← MappedText.length_chars hsingle]
    exact Document.past_le_length rfl node
  · intro k hlo hhi
    rw [Document.covers, List.any_eq_true]
    exact ⟨node, hn, decide_eq_true ⟨hlo, hhi⟩⟩

/-! ### What the edits spare -/

/-- What a declaration or the head of a loop consists of beside constructs are tokens. -/
def SyntaxTree.HasTokens (node : SyntaxTree) : Prop :=
  node.kind ∈ ["lexical_declaration", "variable_declaration", "for_in_statement"] →
    ∀ child ∈ node.children, child.isConstruct = false → child.isToken

instance (node : SyntaxTree) : Decidable node.HasTokens := inferInstanceAs (Decidable (_ → _))

section Spared

variable {doc : Document} {node : SyntaxTree} (hnested : ∀ part ∈ body.nodes, doc.Nested part)

include hnested

/-- In front of all constructs of a node that is seen, and inside of it, there is nothing hidden. -/
theorem spared_head (hn : node ∈ body.seen) (hk : node.kind ∉ functionDeclarationKinds)
    (htokens : ∀ child ∈ node.children, child.isConstruct = false → child.isToken) {lo hi : Nat}
    (hlo : doc.first node ≤ lo) (hhi : hi ≤ doc.past node)
    (hbehind : ∀ child ∈ node.constructs, hi ≤ doc.first child) :
    ∀ h ∈ body.hidden, hi ≤ doc.first h ∨ doc.past h ≤ lo := by
  intro h hh
  rcases Document.mem_hidden_or_apart hnested hn hh with hin | hapart | hapart
  · left
    -- what is hidden in the node is in a construct, since a token is not hidden and holds nothing
    obtain ⟨child, hc, hchild⟩ := SyntaxTree.mem_hidden_iff.mp hin
    by_cases hconstruct : child.isConstruct = true
    · have hle := hbehind child (List.mem_filter.mpr ⟨hc, hconstruct⟩)
      rcases hchild with ⟨_, rfl⟩ | ⟨_, hbelow⟩
      · exact hle
      · have hpart := SyntaxTree.mem_nodes_of_child hc (SyntaxTree.mem_nodes_self child)
        have hnodes := SyntaxTree.nodes_trans (SyntaxTree.mem_nodes_of_mem_seen hn) hpart
        exact Nat.le_trans hle (Document.inside_of_mem_nodes (fun part hp =>
          hnested part (SyntaxTree.nodes_trans hnodes hp))
            (SyntaxTree.mem_nodes_of_mem_hidden hbelow)).1
    · exfalso
      have htoken := htokens child hc (Bool.eq_false_iff.mpr hconstruct)
      simp only [SyntaxTree.isToken, Bool.and_eq_true, List.isEmpty_iff, Bool.not_eq_true',
        List.contains_eq_mem, decide_eq_false_iff_not] at htoken
      rcases hchild with ⟨hhides, _⟩ | ⟨_, hbelow⟩
      · exact htoken.2 (SyntaxTree.kind_of_hides hk hhides)
      · rw [SyntaxTree.hidden_eq, htoken.1] at hbelow
        cases hbelow
  · exact Or.inl (Nat.le_trans hhi hapart)
  · exact Or.inr (Nat.le_trans hapart hlo)

theorem spared_insertions : InsertPermits doc body fun edit =>
    ∀ h ∈ body.hidden, edit.Spares (doc.first h) (doc.past h) where
  before := by
    intro part hp text h hh
    have hedge := (Document.edges_of_shown hnested hp).1 h hh
    simp only [Edit.Spares]
    omega
  after := by
    intro part hp text h hh
    have hedge := (Document.edges_of_shown hnested hp).2 h hh
    simp only [Edit.Spares]
    omega

/-- The edits that the scope pass plans for a well-formed body spare what is hidden. -/
theorem permits_scope (hwf : doc.WellFormed body)
    (htokens : ∀ part ∈ body.seen, part.HasTokens) :
    ScopePermits doc body fun edit =>
      ∀ h ∈ body.hidden, edit.Spares (doc.first h) (doc.past h) where
  toInsertPermits := spared_insertions hnested
  declaration := by
    intro part hp hk first hfirst text h hh
    have hpart := SyntaxTree.mem_nodes_of_mem_seen hp
    have hself := hnested part hpart
    have hin := SyntaxTree.mem_children_of_mem_constructs
      (List.mem_filter.mp (List.mem_of_head? hfirst)).1
    have hle := (hnested first (SyntaxTree.nodes_trans hpart
      (SyntaxTree.mem_nodes_of_child hin (SyntaxTree.mem_nodes_self first)))).le
    have hinside := hself.inside first hin
    -- all constructs are declarators, so there are only tokens in front of the first declarator
    have hall : (part.constructs.filter fun child => child.kind == "variable_declarator") =
        part.constructs := List.filter_eq_self.mpr fun child hc =>
      beq_iff_eq.mpr (((hwf.2 part hpart).declaration hk).2.2.2 child hc).1
    rw [hall] at hfirst
    have hbehind : ∀ child ∈ part.constructs, doc.first first ≤ doc.first child := by
      intro child hc
      obtain ⟨rest, hrest⟩ : ∃ rest, part.constructs = first :: rest := List.head?_eq_some_iff.mp hfirst
      have hordered : part.constructs.Pairwise fun a b => doc.past a ≤ doc.first b :=
        hself.ordered.filter _
      rw [hrest] at hc hordered
      rcases List.mem_cons.mp hc with rfl | hc
      · exact Nat.le_refl _
      · exact Nat.le_trans hle ((List.pairwise_cons.mp hordered).1 child hc)
    have hspared := spared_head hnested hp (SyntaxTree.not_function_of_declaration hk)
      (htokens part hp (by rcases hk with hk | hk <;> rw [hk] <;> decide)) (Nat.le_refl _)
      (Nat.le_trans hle hinside.2) hbehind h hh
    simp only [Edit.Spares]
    omega
  loop := by
    intro part hp hk kind left hkind hleft hvar h hh
    have hpart := SyntaxTree.mem_nodes_of_mem_seen hp
    have hin := SyntaxTree.mem_children_of_child? hleft
    have hle := (hnested left (SyntaxTree.nodes_trans hpart
      (SyntaxTree.mem_nodes_of_child hin (SyntaxTree.mem_nodes_self left)))).le
    have hself := hnested part hpart
    have hinside := hself.inside left hin
    have hfirst := (hself.inside kind (SyntaxTree.mem_children_of_child? hkind)).1
    obtain ⟨_, _, _, _, hbehind⟩ := ((hwf.2 part hpart).forIn hk kind hkind hvar).2 left hleft
    have hspared := spared_head hnested hp (by rw [hk]; decide) (htokens part hp (by rw [hk]; decide))
      hfirst (Nat.le_trans hle hinside.2) hbehind h hh
    simp only [Edit.Spares]
    omega

/-- An edit of the import pass spares a hidden node, or replaces all of it. -/
theorem permits_imports : ImportPermits doc body fun edit => ∀ h ∈ body.hidden,
    edit.Spares (doc.first h) (doc.past h) ∨ ∃ start stop text,
      edit = .replace start stop text ∧ start ≤ (doc.first h : Int) ∧ (doc.past h : Int) ≤ stop where
  before part hp text h hh := Or.inl ((spared_insertions hnested).before part hp text h hh)
  after part hp text h hh := Or.inl ((spared_insertions hnested).after part hp text h hh)
  replace := by
    have hends : ∀ place, doc.IsEnd body place → doc.Edge body place := by
      rintro place ⟨part, hp, rfl | rfl⟩
      · exact (Document.edges_of_shown hnested hp).1
      · exact (Document.edges_of_shown hnested hp).2
    intro lo hi hlo hhi text h hh
    have hfront := hends lo hlo h hh
    have hback := hends hi hhi h hh
    by_cases hspared : hi ≤ doc.first h ∨ doc.past h ≤ lo
    · left
      simp only [Edit.Spares]
      omega
    · exact Or.inr ⟨lo, hi, _, rfl, by omega, by omega⟩

end Spared

theorem IsStatement.replaced_within {doc : Document} {node specifier : SyntaxTree}
    (h : IsStatement doc node specifier) {start stop : Int} {text : Fragment}
    (he : Edit.replace start stop text ∈ importEdits doc node) :
    (doc.first node : Int) ≤ start ∧ stop ≤ doc.past node := by
  obtain ⟨⟨_, _, hlt⟩, hle⟩ := h.specifier_in
  have hfirst := h.first_lt
  rw [h.importEdits_eq] at he
  rcases List.mem_append.mp he with he | he
  · have hwithin := h.frame_within _ he
    simp only [Edit.Within] at hwithin
    omega
  · rcases List.mem_append.mp he with he | he
    · cases List.mem_singleton.mp he
      omega
    · have hwithin := h.innerEdits_within _ he
      simp only [Edit.Within] at hwithin
      omega

/-! ### Both passes -/

def ReplacedInImport (doc : Document) (body node : SyntaxTree) (edits : List Edit) : Prop :=
  ∃ statement ∈ body.imports, ∃ start stop text, Edit.replace start stop text ∈ edits ∧
    (doc.first statement : Int) ≤ start ∧ start ≤ doc.first node ∧ doc.past node ≤ stop ∧
      stop ≤ doc.past statement

theorem LookAlike.imports_fillAlike (h : LookAlike source₁ source₂ tree₁ tree₂)
    (hbody : (Document.ofTree source₁.chars tree₁).wrappedBody source₁ = .ok body)
    (hsingle₁ : ∀ c ∈ source₁, c.IsSingle) (hsingle₂ : ∀ c ∈ source₂, c.IsSingle)
    (hwf : (Document.ofTree source₁.chars tree₁).WithImports body) :
    ∃ template, FillAlike (Document.ofTree source₁.chars tree₁) body source₁ source₂
        (applyImportPass source₁ tree₁) (applyImportPass source₂ tree₂) template ∧
      ∀ node ∈ body.hidden, (Document.ofTree source₁.chars tree₁).Verbatim node template ∨
        ReplacedInImport (Document.ofTree source₁.chars tree₁) body node
          (plannedEdits planImports source₁ tree₁) := by
  have hk := kind_of_wrappedBody hbody
  have hview := h.readable₁.isView hbody rfl
  obtain ⟨edits, hplans, hrange, _⟩ := exists_planImports hsingle₁ hk hwf
  have hout := editBody_of_plans h.readable₁.unflagged hbody hplans hrange
  have hedits := hplans.unique (walk_imports hwf.covers hwf.shaped (by rw [hk]; decide) false)
  have hplanned : plannedEdits planImports source₁ tree₁ = edits := by
    have hrun := hplans []
    rw [h.readable₁.plannedEdits_eq hbody]
    exact congrArg (fun run => run.2.edits) hrun
  have hfair := (mirrors_planImports hview (permits_imports hview.nested)).planned
  rw [← h.readable₁.plannedEdits_eq hbody] at hfair
  refine ⟨_, h.fillAlike unaware_planImports hbody hsingle₁ hsingle₂ hout, fun node hn => ?_⟩
  by_cases hspares : ∀ edit ∈ plannedEdits planImports source₁ tree₁,
      edit.Spares ((Document.ofTree source₁.chars tree₁).first node)
        ((Document.ofTree source₁.chars tree₁).past node)
  · exact Or.inl (verbatim_of_spares hsingle₁ hn hspares)
  · right
    simp only [not_forall] at hspares
    obtain ⟨edit, he, hno⟩ := hspares
    rcases hfair edit he node hn with hspared | ⟨start, stop, text, rfl, hstart, hstop⟩
    · exact absurd hspared hno
    · -- which import the replacement belongs to is read off the edits of the whole walk
      have hmade := he
      rw [hplanned, hedits] at hmade
      obtain ⟨statement, hs, hmade⟩ := List.mem_flatMap.mp hmade
      obtain ⟨specifier, hstatement⟩ := isStatement_of_mem_imports hwf.covers hwf.shaped hs
      obtain ⟨hlo, hhi⟩ := hstatement.replaced_within hmade
      exact ⟨statement, hs, start, stop, text, he, hlo, hstart, hstop, hhi⟩

theorem LookAlike.scope_fillAlike (h : LookAlike source₁ source₂ tree₁ tree₂)
    (hbody : (Document.ofTree source₁.chars tree₁).wrappedBody source₁ = .ok body)
    (hsingle₁ : ∀ c ∈ source₁, c.IsSingle) (hsingle₂ : ∀ c ∈ source₂, c.IsSingle)
    (hwf : (Document.ofTree source₁.chars tree₁).WellFormed body)
    (htokens : ∀ part ∈ body.seen, part.HasTokens) :
    ∃ template, FillAlike (Document.ofTree source₁.chars tree₁) body source₁ source₂
        (applyScopePass source₁ tree₁) (applyScopePass source₂ tree₂) template ∧
      ∀ node ∈ body.hidden, (Document.ofTree source₁.chars tree₁).Verbatim node template := by
  have hk := kind_of_wrappedBody hbody
  have hview := h.readable₁.isView hbody rfl
  obtain ⟨edits, hplans, hwithin, _⟩ := exists_planScope source₁ hwf hk
  have hend : (Document.ofTree source₁.chars tree₁).past body ≤ source₁.length := by
    rw [← MappedText.length_chars hsingle₁]
    exact hwf.1.past_le
  have hout := editBody_of_plans h.readable₁.unflagged hbody hplans
    fun edit he => (hwithin edit he).inRange hend
  have hspares := (mirrors_planScope hview (permits_scope hview.nested hwf htokens) hk).planned
  rw [← h.readable₁.plannedEdits_eq hbody] at hspares
  exact ⟨_, h.fillAlike unaware_planScope hbody hsingle₁ hsingle₂ hout, fun node hn =>
    verbatim_of_spares hsingle₁ hn fun edit he => hspares edit he node hn⟩

/-- On two texts that look alike both passes do the same, and what is hidden comes through them as it
is. -/
theorem passes_overlook_hidden (source₁ source₂ : MappedText) (tree₁ tree₂ : SyntaxTree)
    (h : LookAlike source₁ source₂ tree₁ tree₂) :
    RunAlike planImports source₁ source₂ tree₁ tree₂ ∧
      RunAlike planScope source₁ source₂ tree₁ tree₂ ∧
      ∀ body, (Document.ofTree source₁.chars tree₁).wrappedBody source₁ = .ok body →
        (∀ c ∈ source₁, c.IsSingle) → (∀ c ∈ source₂, c.IsSingle) →
        ((Document.ofTree source₁.chars tree₁).WithImports body →
          ∃ template, FillAlike (Document.ofTree source₁.chars tree₁) body source₁ source₂
              (applyImportPass source₁ tree₁) (applyImportPass source₂ tree₂) template ∧
            ∀ node ∈ body.hidden, (Document.ofTree source₁.chars tree₁).Verbatim node template ∨
              ReplacedInImport (Document.ofTree source₁.chars tree₁) body node
                (plannedEdits planImports source₁ tree₁)) ∧
        ((Document.ofTree source₁.chars tree₁).WellFormed body →
          (∀ part ∈ body.seen, part.HasTokens) →
          ∃ template, FillAlike (Document.ofTree source₁.chars tree₁) body source₁ source₂
              (applyScopePass source₁ tree₁) (applyScopePass source₂ tree₂) template ∧
            ∀ node ∈ body.hidden,
              (Document.ofTree source₁.chars tree₁).Verbatim node template) := by
  refine ⟨h.runAlike unaware_planImports, h.runAlike unaware_planScope, ?_⟩
  intro body hbody hsingle₁ hsingle₂
  exact ⟨h.imports_fillAlike hbody hsingle₁ hsingle₂, h.scope_fillAlike hbody hsingle₁ hsingle₂⟩

/-- The block of `f{import'b';var a=…}`, where the function has `size` bytes and these parts. -/
def arrowBlock (size : Nat) (parts : List SyntaxTree) : SyntaxTree :=
  .node { kind := "statement_block", start := 1, stop := size + 19, field := some "body" }
    [.node { kind := "import_statement", start := 2, stop := 12 } [.leaf "string" 8 11 "source"],
      .node { kind := "variable_declaration", start := 12, stop := size + 18 }
        [.token "var" 12 15,
          .node { kind := "variable_declarator", start := 16, stop := size + 18 }
            [.leaf "identifier" 16 17 "name",
              .node { kind := "arrow_function", start := 18, stop := size + 18, field := some "value" }
                parts]]]

def plainArrow : MappedText := .ofString "f\x7bimport'b';var a=()=>x\x7d"

def plainArrowBlock : SyntaxTree :=
  arrowBlock 5 [.leaf "formal_parameters" 18 20 "parameters", .leaf "identifier" 22 23 "body"]

def plainArrowTree : SyntaxTree := .ofBlock 24 1 24 plainArrowBlock.children

def listArrow : MappedText := .ofString "f\x7bimport'b';var a=é=>[]\x7d"

def listArrowBlock : SyntaxTree :=
  arrowBlock 6 [.leaf "identifier" 18 20 "parameter", .leaf "array" 22 24 "body"]

def listArrowTree : SyntaxTree := .ofBlock 25 1 25 listArrowBlock.children

theorem wrappedBody_plainArrow : (Document.ofTree plainArrow.chars plainArrowTree).wrappedBody
    plainArrow = .ok plainArrowBlock := rfl

theorem wrappedBody_listArrow : (Document.ofTree listArrow.chars listArrowTree).wrappedBody
    listArrow = .ok listArrowBlock := rfl

theorem lookAlike_arrows : LookAlike plainArrow listArrow plainArrowTree listArrowTree where
  readable₁ := by
    refine ⟨rfl, by decide +kernel, fun body hbody => ?_⟩
    cases wrappedBody_plainArrow.symm.trans hbody
    decide +kernel
  readable₂ := by
    refine ⟨rfl, by decide +kernel, fun body hbody => ?_⟩
    cases wrappedBody_listArrow.symm.trans hbody
    decide +kernel
  length := by decide +kernel
  outline := by decide +kernel

theorem chars_of_toOption {result : Except PassError MappedText} {out : MappedText} {text : List Char}
    (hout : result = .ok out) (h : result.toOption.map MappedText.chars = some text) :
    out.chars = text := by
  rw [hout] at h
  exact Option.some.inj h

theorem passes_overlook_hidden_applied :
    LookAlike plainArrow listArrow plainArrowTree listArrowTree ∧
      RunAlike planImports plainArrow listArrow plainArrowTree listArrowTree ∧
      RunAlike planScope plainArrow listArrow plainArrowTree listArrowTree ∧
      (∃ template,
        Template.fill plainArrow.chars template =
          "f\x7bawait __import('b');var a=()=>x\x7d".toList ∧
        Template.fill listArrow.chars template =
          "f\x7bawait __import('b');var a=é=>[]\x7d".toList ∧
        (List.range' 18 5).map .free <:+: template) ∧
      ∃ template,
        Template.fill plainArrow.chars template =
          "f\x7bimport'b';void ((__global.a=()=>x))\x7d".toList ∧
        Template.fill listArrow.chars template =
          "f\x7bimport'b';void ((__global.a=é=>[]))\x7d".toList ∧
        (List.range' 18 5).map .free <:+: template := by
  obtain ⟨himports, hscope, hboth⟩ := passes_overlook_hidden _ _ _ _ lookAlike_arrows
  have hpasses := hboth plainArrowBlock wrappedBody_plainArrow (MappedText.isSingle_ofString _)
    (MappedText.isSingle_ofString _)
  have harrow : ∃ node ∈ plainArrowBlock.hidden,
      (Document.ofTree plainArrow.chars plainArrowTree).first node = 18 ∧
        (Document.ofTree plainArrow.chars plainArrowTree).past node = 23 := by decide +kernel
  obtain ⟨node, hn, hfirst, hpast⟩ := harrow
  refine ⟨lookAlike_arrows, himports, hscope, ?_, ?_⟩
  · obtain ⟨template, halike, hverbatim⟩ := hpasses.1 (by decide +kernel)
    obtain ⟨out, hout, hfill⟩ := halike.first
    obtain ⟨other, hother, hfill'⟩ := halike.second
    have hbehind : ∀ statement ∈ plainArrowBlock.imports,
        (Document.ofTree plainArrow.chars plainArrowTree).past statement < 23 := by decide +kernel
    rcases hverbatim node hn with hrange | ⟨statement, hs, start, stop, _, _, _, _, hnode, hstop⟩
    · rw [Document.Verbatim, hfirst, hpast] at hrange
      exact ⟨template, hfill.trans (chars_of_toOption hout (by decide +kernel)),
        hfill'.trans (chars_of_toOption hother (by decide +kernel)), hrange⟩
    · have hlt := hbehind statement hs
      omega
  · obtain ⟨template, halike, hverbatim⟩ := hpasses.2 (by decide +kernel) (by decide +kernel)
    obtain ⟨out, hout, hfill⟩ := halike.first
    obtain ⟨other, hother, hfill'⟩ := halike.second
    have hrange := hverbatim node hn
    rw [Document.Verbatim, hfirst, hpast] at hrange
    exact ⟨template, hfill.trans (chars_of_toOption hout (by decide +kernel)),
      hfill'.trans (chars_of_toOption hother (by decide +kernel)), hrange⟩

end NotebookCell
