import NotebookCell.Proofs.Import.Spelling
import NotebookCell.Proofs.Scope.Moves

/-!
# Patterns that take bindings out of a module

The tree of what the import pass writes for the bindings of an import: properties with one key, and in
each of them a target. The scope pass moves the one name in every target.
-/

namespace NotebookCell

namespace ImportBinding

def movedTarget : ImportBinding → List Char
  | standard localName => "\x7bdefault:".toList ++ (namespaceDot ++ localName) ++ ['}']
  | starred localName => namespaceDot ++ localName
  | named name => '{' :: name ++ ':' :: (namespaceDot ++ name) ++ ['}']
  | renamed name localName => '{' :: name ++ ':' :: (namespaceDot ++ localName) ++ ['}']

def movedProperty (binding : ImportBinding) : List Char := "_:".toList ++ binding.movedTarget

end ImportBinding

/-! ### The shapes -/

namespace Document

variable (doc : Document)

def Named (kind : String) (chars : List Char) (node : SyntaxTree) : Prop :=
  node.kind = kind ∧ doc.spelling node = chars

def Object (properties : List SyntaxTree) (node : SyntaxTree) : Prop :=
  node.kind = "object_pattern" ∧
    doc.LaidOut node (.text ['{'] :: (LayoutWord.separated properties ++ [.text ['}']]))

/-- A property of an object pattern: a key in which nothing is declared or bound, and the target behind
it. The key is a string where a module exports something under one. -/
structure Pair (chars : List Char) (key target node : SyntaxTree) : Prop where
  kind : node.kind = "pair_pattern"
  laid : doc.LaidOut node [.node key, .text [':'], .node target]
  keyKind : key.kind = "property_identifier" ∨ key.kind = "string"
  spelled : doc.spelling key = chars
  quiet : key.exposes = false ∧ key.holdsPattern = false
  keyField : key.isField "value" = false
  targetField : target.isField "value" = true

inductive Takes : ImportBinding → SyntaxTree → Prop
  | standard {localName : List Char} {pair key name node : SyntaxTree} (object : doc.Object [pair] node)
      (property : doc.Pair "default".toList key name pair)
      (named : doc.Named "identifier" localName name) : Takes (.standard localName) node
  | starred {localName : List Char} {node : SyntaxTree} (named : doc.Named "identifier" localName node) :
      Takes (.starred localName) node
  | named {name : List Char} {short node : SyntaxTree} (object : doc.Object [short] node)
      (named : doc.Named "shorthand_property_identifier_pattern" name short) : Takes (.named name) node
  | renamed {chars localName : List Char} {pair key name node : SyntaxTree}
      (object : doc.Object [pair] node) (property : doc.Pair chars key name pair)
      (named : doc.Named "identifier" localName name) : Takes (.renamed chars localName) node

/-- A property takes a binding out of the object that holds a module. -/
def TakesFrom (binding : ImportBinding) (property : SyntaxTree) : Prop :=
  ∃ key target, doc.Pair ['_'] key target property ∧ doc.Takes binding target

end Document

variable {doc : Document} {source : MappedText} {node : SyntaxTree} {mode : NameMode}

/-! ### The nodes of a pattern -/

namespace Document

variable {properties : List SyntaxTree} {chars : List Char} {key target : SyntaxTree}

theorem Object.nodes (h : doc.Object properties node) : node.constructs = properties := by
  have hnodes := h.2.constructs
  rw [LayoutWord.nodes, LayoutWord.nodes_append, LayoutWord.nodes_separated] at hnodes
  exact hnodes.trans (List.append_nil properties)

theorem Object.binders (h : doc.Object properties node) :
    node.binders = properties.flatMap SyntaxTree.binders := by
  have hnames : node.children.filter (SyntaxTree.holdsNames node) = properties := by
    rw [← h.nodes]
    exact List.filter_congr fun child _ => SyntaxTree.holdsNames_structure (Or.inl h.1)
  rw [SyntaxTree.binders_of_other (by rw [h.1]; decide) (by rw [h.1]; decide), hnames]

theorem Object.keepsExpressions (h : doc.Object properties node)
    (hproperties : ∀ property ∈ properties, property.KeepsExpressions) : node.KeepsExpressions := by
  intro expression hexpression
  rw [SyntaxTree.patternExpressions_of_pattern (by rw [h.1]; decide)] at hexpression
  obtain ⟨child, hc, hexpression⟩ := List.mem_flatMap.mp hexpression
  rw [SyntaxTree.holdsNames_structure (Or.inl h.1), h.1] at hexpression
  split at hexpression
  · rename_i hconstruct
    have hin : child ∈ properties := by
      rw [← h.nodes]
      exact List.mem_filter.mpr ⟨hc, hconstruct⟩
    exact hproperties child hin expression hexpression
  · cases hexpression

theorem Pair.target_mem (h : doc.Pair chars key target node) : target ∈ node.children := by
  apply SyntaxTree.mem_children_of_mem_constructs
  rw [h.laid.constructs]
  exact List.mem_cons_of_mem key (List.mem_singleton_self target)

theorem Pair.key_mem (h : doc.Pair chars key target node) : key ∈ node.children := by
  apply SyntaxTree.mem_children_of_mem_constructs
  rw [h.laid.constructs]
  exact List.mem_cons_self

theorem Pair.fields (h : doc.Pair chars key target node) (hformed : doc.PatternFormed node) :
    node.fields "value" = [target] := by
  obtain ⟨hone, _⟩ := hformed.shaped.pair h.kind
  obtain ⟨value, hvalue⟩ := List.length_eq_one_iff.mp hone
  have hin : target ∈ node.fields "value" := List.mem_filter.mpr ⟨h.target_mem, h.targetField⟩
  rw [hvalue] at hin ⊢
  rw [List.mem_singleton.mp hin]

theorem Pair.binders (h : doc.Pair chars key target node) (hformed : doc.PatternFormed node) :
    node.binders = target.binders := by
  have hnames : node.children.filter (SyntaxTree.holdsNames node) = [target] := by
    rw [← h.fields hformed]
    exact List.filter_congr fun child _ => SyntaxTree.holdsNames_pair h.kind
  rw [SyntaxTree.binders_of_other (by rw [h.kind]; decide) (by rw [h.kind]; decide), hnames]
  exact List.append_nil _

theorem Pair.keepsExpressions (h : doc.Pair chars key target node) (hformed : doc.PatternFormed node)
    (htarget : target.KeepsExpressions) : node.KeepsExpressions := by
  intro expression hexpression
  rw [SyntaxTree.patternExpressions_of_pattern (by rw [h.kind]; decide)] at hexpression
  obtain ⟨child, hc, hexpression⟩ := List.mem_flatMap.mp hexpression
  rw [SyntaxTree.holdsNames_pair h.kind] at hexpression
  split at hexpression
  · rename_i hvalue
    have hin : child ∈ node.fields "value" := List.mem_filter.mpr ⟨hc, hvalue⟩
    rw [h.fields hformed] at hin
    rw [List.mem_singleton.mp hin] at hexpression
    exact htarget expression hexpression
  · rename_i hvalue
    split at hexpression
    · rename_i hconstruct
      have hin : child ∈ node.constructs :=
        List.mem_filter.mpr ⟨hc, (Bool.and_eq_true_iff.mp hconstruct).2⟩
      rw [h.laid.constructs] at hin
      rcases List.mem_cons.mp hin with hkey | htarget'
      · rw [List.mem_singleton.mp hexpression, hkey]
        exact h.quiet.2
      · rw [List.mem_singleton.mp htarget'] at hvalue
        exact absurd h.targetField hvalue
    · cases hexpression

theorem Named.keepsExpressions {kind : String} (h : doc.Named kind chars node) (hk : kind ∈ nameKinds) :
    node.KeepsExpressions := by
  intro expression hexpression
  have hname : (namedKinds.contains node.kind || nameKinds.contains node.kind) = true := by
    rw [h.1, Bool.or_eq_true]
    exact Or.inr (List.contains_iff_mem.mpr hk)
  rw [SyntaxTree.patternExpressions, SyntaxTree.fold_eq, if_pos hname] at hexpression
  cases hexpression

theorem Named.binders {kind : String} (h : doc.Named kind chars node) (hk : kind ∈ nameKinds) :
    node.binders.map doc.spelling = [chars] := by
  rw [SyntaxTree.binders_of_name (Or.inr (by rw [h.1]; exact hk)), List.map_singleton, h.2]

end Document

namespace Document

variable {binding : ImportBinding} {bindings : List ImportBinding} {properties : List SyntaxTree}
  {chars : List Char} {key target property : SyntaxTree}

theorem Object.formed (h : doc.Object properties node) (hformed : doc.PatternFormed node)
    (hp : property ∈ properties) : doc.PatternFormed property := by
  rw [← h.nodes] at hp
  exact hformed.construct hp

theorem Pair.formed (h : doc.Pair chars key target node) (hformed : doc.PatternFormed node) :
    doc.PatternFormed target := hformed.child h.target_mem

/-! ### The names -/

theorem Takes.binders (h : doc.Takes binding node) (hformed : doc.PatternFormed node) :
    node.binders.map doc.spelling = [binding.localName] := by
  cases h with
  | standard object property named =>
    have hpair := object.formed hformed List.mem_cons_self
    rw [object.binders, List.flatMap_singleton, property.binders hpair]
    exact named.binders (by decide)
  | starred named => exact named.binders (by decide)
  | named object named =>
    rw [object.binders, List.flatMap_singleton]
    exact named.binders (by decide)
  | renamed object property named =>
    have hpair := object.formed hformed List.mem_cons_self
    rw [object.binders, List.flatMap_singleton, property.binders hpair]
    exact named.binders (by decide)

theorem Takes.keepsExpressions (h : doc.Takes binding node) (hformed : doc.PatternFormed node) :
    node.KeepsExpressions := by
  cases h with
  | standard object property named =>
    apply object.keepsExpressions
    intro pair hp
    rw [List.mem_singleton.mp hp]
    exact property.keepsExpressions (object.formed hformed List.mem_cons_self)
      (named.keepsExpressions (by decide))
  | starred named => exact named.keepsExpressions (by decide)
  | named object named =>
    apply object.keepsExpressions
    intro short hs
    rw [List.mem_singleton.mp hs]
    exact named.keepsExpressions (by decide)
  | renamed object property named =>
    apply object.keepsExpressions
    intro pair hp
    rw [List.mem_singleton.mp hp]
    exact property.keepsExpressions (object.formed hformed List.mem_cons_self)
      (named.keepsExpressions (by decide))

theorem TakesFrom.binders (h : doc.TakesFrom binding property) (hformed : doc.PatternFormed property) :
    property.binders.map doc.spelling = [binding.localName] := by
  obtain ⟨key, target, hpair, htakes⟩ := h
  rw [hpair.binders hformed]
  exact htakes.binders (hpair.formed hformed)

theorem TakesFrom.keepsExpressions (h : doc.TakesFrom binding property)
    (hformed : doc.PatternFormed property) : property.KeepsExpressions := by
  obtain ⟨key, target, hpair, htakes⟩ := h
  exact hpair.keepsExpressions hformed (htakes.keepsExpressions (hpair.formed hformed))

theorem exists_of_taken (htaken : List.Forall₂ doc.TakesFrom bindings properties)
    (hp : property ∈ properties) : ∃ binding, doc.TakesFrom binding property := by
  induction htaken with
  | nil => cases hp
  | cons hhead htail ih =>
    rcases List.mem_cons.mp hp with rfl | hp
    · exact ⟨_, hhead⟩
    · exact ih hp

theorem map_of_taken {α : Type} {f : ImportBinding → α} {g : SyntaxTree → α}
    (htaken : List.Forall₂ doc.TakesFrom bindings properties)
    (hsame : ∀ binding, ∀ property ∈ properties, doc.TakesFrom binding property →
      g property = f binding) : properties.map g = bindings.map f := by
  induction htaken with
  | nil => rfl
  | cons hhead htail ih =>
    have hrest := ih fun binding property hp => hsame binding property (List.mem_cons_of_mem _ hp)
    rw [List.map_cons, List.map_cons, hsame _ _ List.mem_cons_self hhead, hrest]

/-- The pattern of an import binds the local names of its bindings, in order. -/
theorem Object.names (h : doc.Object properties node) (hformed : doc.PatternFormed node)
    (htaken : List.Forall₂ doc.TakesFrom bindings properties) :
    node.binders.map doc.spelling = bindings.map ImportBinding.localName := by
  have hnames := map_of_taken (f := fun binding => [binding.localName])
    (g := fun property => property.binders.map doc.spelling) htaken fun _ _ hp htakes =>
      htakes.binders (h.formed hformed hp)
  rw [h.binders, List.map_flatMap, List.flatMap, hnames, ← List.flatMap]
  exact List.map_eq_flatMap.symm

/-! ### The texts -/

section Spelled

variable (hsingle : ∀ c ∈ source, c.IsSingle) (hsource : doc.text = source.chars)

include hsingle hsource

theorem LaidOut.chars_rendered {words : List LayoutWord} (h : doc.LaidOut node words)
    (hk : node.kind ∉ valueKinds) : (rendered doc source node mode).chars =
      LayoutWord.spelled (fun child =>
        (renderScope doc source child false (childMode node mode child)).chars) words := by
  simp only [valueKinds, List.mem_cons, List.not_mem_nil, or_false, not_or] at hk
  rw [rendered, filter_rendersChild hk.1 hk.2.1 hk.2.2, h.constructs]
  exact h.layout.chars_splice hsingle hsource _

theorem Named.chars_bound (h : doc.Named "identifier" chars node) (hformed : doc.PatternFormed node) :
    (renderScope doc source node false .bound).chars = namespaceDot ++ chars := by
  rw [render_identifier hformed h.1, MappedText.chars_append, MappedText.chars_ofChars, copied,
    doc.spelling_eq hsingle hsource, h.2]

theorem Named.chars_short (h : doc.Named "shorthand_property_identifier_pattern" chars node)
    (hformed : doc.PatternFormed node) :
    (renderScope doc source node false .property).chars = chars ++ ':' :: (namespaceDot ++ chars) := by
  rw [render_shorthand hformed h.1, MappedText.chars_append, MappedText.chars_ofChars, copied,
    doc.spelling_eq hsingle hsource, h.2]

theorem Pair.chars_moved (h : doc.Pair chars key target node) (hformed : doc.PatternFormed node) :
    (renderScope doc source node false .property).chars =
      chars ++ ':' :: (renderScope doc source target false .bound).chars := by
  have hmode : childMode node .property target = .bound := by
    rw [childMode_pair target h.kind, if_pos ⟨rfl, h.targetField⟩]
  have hmodeKey : childMode node .property key = .on := by
    rw [childMode_pair key h.kind, h.keyField, if_neg fun hboth => Bool.false_ne_true hboth.2]
    rfl
  have hdeclarator : key.kind ≠ "variable_declarator" := by
    rcases h.keyKind with hk | hk
    · rw [hk]
      decide
    · rw [hk]
      decide
  have hkey : renderScope doc source key false .on = copied doc source key :=
    render_on_of_expression (hformed.child h.key_mem) h.quiet.1 h.quiet.2 hdeclarator
  have hplain : renderScope doc source node false .property = rendered doc source node .property :=
    render_plain (by rw [h.kind]; decide) (by rw [h.kind]; decide) (by intro hm; cases hm)
      (by rw [h.kind]; decide)
  rw [hplain, h.laid.chars_rendered hsingle hsource (by rw [h.kind]; decide)]
  simp only [LayoutWord.spelled, hmode, hmodeKey, hkey, copied, doc.spelling_eq hsingle hsource,
    h.spelled, List.append_nil]
  rfl

omit hsingle hsource in
theorem spelled_object (spelling : SyntaxTree → List Char) (properties : List SyntaxTree) :
    LayoutWord.spelled spelling (.text ['{'] :: (LayoutWord.separated properties ++ [.text ['}']])) =
      '{' :: Text.joinWith [','] (properties.map spelling) ++ ['}'] := by
  rw [LayoutWord.spelled, LayoutWord.spelled_append, LayoutWord.spelled_separated]
  rfl

theorem Object.chars_moved (h : doc.Object properties node) :
    (renderScope doc source node false .bound).chars =
      '{' :: Text.joinWith [','] (properties.map fun property =>
        (renderScope doc source property false .property).chars) ++ ['}'] := by
  have hmode : childMode node .bound = fun _ => .property := by
    funext property
    rw [childMode_structure property (Or.inl h.1), h.1]
    rfl
  have hplain : renderScope doc source node false .bound = rendered doc source node .bound :=
    render_plain (by rw [h.1]; decide) (by rw [h.1]; decide) (by rw [h.1]; decide)
      (by intro hm; cases hm)
  rw [hplain, h.2.chars_rendered hsingle hsource (by rw [h.1]; decide), hmode, spelled_object]

theorem Takes.chars_moved (h : doc.Takes binding node) (hformed : doc.PatternFormed node) :
    (renderScope doc source node false .bound).chars = binding.movedTarget := by
  cases h with
  | standard object property named =>
    have hpair := object.formed hformed List.mem_cons_self
    rw [object.chars_moved hsingle hsource, List.map_singleton, property.chars_moved hsingle hsource hpair,
      named.chars_bound hsingle hsource (property.formed hpair)]
    rfl
  | starred named => exact named.chars_bound hsingle hsource hformed
  | named object named =>
    rw [object.chars_moved hsingle hsource, List.map_singleton,
      named.chars_short hsingle hsource (object.formed hformed List.mem_cons_self)]
    rfl
  | renamed object property named =>
    have hpair := object.formed hformed List.mem_cons_self
    rw [object.chars_moved hsingle hsource, List.map_singleton, property.chars_moved hsingle hsource hpair,
      named.chars_bound hsingle hsource (property.formed hpair)]
    rfl

theorem TakesFrom.chars_moved (h : doc.TakesFrom binding property) (hformed : doc.PatternFormed property) :
    (renderScope doc source property false .property).chars = binding.movedProperty := by
  obtain ⟨key, target, hpair, htakes⟩ := h
  rw [hpair.chars_moved hsingle hsource hformed, htakes.chars_moved hsingle hsource (hpair.formed hformed)]
  rfl

/-! ### Before the scope pass -/

theorem Layout.spelled_eq {lo hi : Nat} {words : List LayoutWord} (h : doc.Layout lo hi words) :
    (source.segment lo hi).chars = LayoutWord.spelled doc.spelling words := by
  have hspelled := h.chars_splice hsingle hsource (copied doc source)
  rw [splice_copied h.row source] at hspelled
  rw [hspelled]
  congr 1
  funext tree
  exact doc.spelling_eq hsingle hsource tree

theorem LaidOut.spelling_eq {words : List LayoutWord} (h : doc.LaidOut node words) :
    doc.spelling node = LayoutWord.spelled doc.spelling words := by
  rw [← doc.spelling_eq hsingle hsource node]
  exact h.layout.spelled_eq hsingle hsource

theorem Pair.spelling_eq (h : doc.Pair chars key target node) :
    doc.spelling node = chars ++ ':' :: doc.spelling target := by
  rw [h.laid.spelling_eq hsingle hsource]
  simp only [LayoutWord.spelled, h.spelled, List.append_nil]
  rfl

theorem Object.spelling_eq (h : doc.Object properties node) :
    doc.spelling node = '{' :: Text.joinWith [','] (properties.map doc.spelling) ++ ['}'] := by
  rw [h.2.spelling_eq hsingle hsource, spelled_object]

theorem Takes.spelling_eq (h : doc.Takes binding node) : doc.spelling node = binding.target := by
  cases h with
  | standard object property named =>
    rw [object.spelling_eq hsingle hsource, List.map_singleton, property.spelling_eq hsingle hsource,
      named.2]
    rfl
  | starred named => exact named.2
  | named object named =>
    rw [object.spelling_eq hsingle hsource, List.map_singleton, named.2]
    rfl
  | renamed object property named =>
    rw [object.spelling_eq hsingle hsource, List.map_singleton, property.spelling_eq hsingle hsource,
      named.2]
    rfl

theorem TakesFrom.spelling_eq (h : doc.TakesFrom binding property) :
    doc.spelling property = binding.property := by
  obtain ⟨key, target, hpair, htakes⟩ := h
  rw [hpair.spelling_eq hsingle hsource, htakes.spelling_eq hsingle hsource]
  rfl

end Spelled

end Document

end NotebookCell
