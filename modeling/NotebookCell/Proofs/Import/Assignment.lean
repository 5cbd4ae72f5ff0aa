import NotebookCell.Proofs.Import.Targets
import NotebookCell.Proofs.Scope.Bindings

/-!
# Imports are assigned to the namespace

The import pass makes a declaration of an import, and the scope pass, given a tree in which that is the
declaration of a pattern, makes an assignment to the namespace of it. Every name that the import binds is
assigned once.
-/

namespace NotebookCell

/-- The statement that stands for an import with bindings after both passes. -/
def importAssignment (bindings : List ImportBinding) (module : List Char) : List Char :=
  "void ((\x7b".toList ++ Text.joinWith [','] (bindings.map ImportBinding.movedProperty) ++
    "\x7d = ".toList ++ awaitedModule module ++ "));".toList

/-- A declarator of one pattern, which takes all bindings out of an awaited module. -/
structure Document.Destructures (doc : Document) (bindings : List ImportBinding) (module : List Char)
    (node pattern equals value : SyntaxTree) (properties : List SyntaxTree) : Prop where
  kind : node.kind = "variable_declarator"
  children : node.children = [pattern, equals, value]
  nameField : pattern.isField "name" = true
  sign : equals.isField "name" = false ∧ equals.isField "value" = false
  valueField : value.isField "value" = true ∧ value.isField "name" = false
  layout : doc.Layout (doc.first node) (doc.past node)
    [.node pattern, .text " = ".toList, .node value]
  object : doc.Object properties pattern
  taken : List.Forall₂ doc.TakesFrom bindings properties
  awaited : doc.spelling value = awaitedModule module

def Document.DeclaresImport (doc : Document) (bindings : List ImportBinding) (module : List Char)
    (node : SyntaxTree) : Prop :=
  node.kind = "variable_declaration" ∧ ∃ declarator pattern equals value properties,
    doc.LaidOut node [.text "var ".toList, .node declarator, .text [';']] ∧
      doc.Destructures bindings module declarator pattern equals value properties

variable {doc : Document} {source : MappedText} {node : SyntaxTree} {bindings : List ImportBinding}
  {module : List Char} {declarator pattern equals value : SyntaxTree} {properties : List SyntaxTree}

/-! ### The declarator -/

namespace Document

namespace Destructures

variable (h : doc.Destructures bindings module node pattern equals value properties)

include h

theorem pattern_mem : pattern ∈ node.children := by
  rw [h.children]
  exact List.mem_cons_self

theorem value_mem : value ∈ node.children := by
  rw [h.children]
  exact List.mem_cons_of_mem _ (List.mem_cons_of_mem _ List.mem_cons_self)

theorem names_eq : node.fields "name" = [pattern] := by
  rw [SyntaxTree.fields, h.children, List.filter_cons_of_pos h.nameField,
    List.filter_cons_of_neg (by rw [h.sign.1]; decide),
    List.filter_cons_of_neg (by rw [h.valueField.2]; decide), List.filter_nil]

theorem shown_eq : node.children.filter (rendersChild node) = [pattern, value] := by
  have hfields : rendersChild node = fun part => part.isField "name" || part.isField "value" := by
    funext part
    rw [rendersChild, h.kind]
    rfl
  rw [hfields, h.children, List.filter_cons_of_pos (by rw [h.nameField]; rfl),
    List.filter_cons_of_neg (by rw [h.sign.1, h.sign.2]; decide),
    List.filter_cons_of_pos (by rw [h.valueField.1, Bool.or_true]), List.filter_nil]

theorem keepsExpressions (hformed : doc.PatternFormed node) : pattern.KeepsExpressions := by
  apply h.object.keepsExpressions
  intro property hp
  obtain ⟨binding, htakes⟩ := exists_of_taken h.taken hp
  exact htakes.keepsExpressions (h.object.formed (hformed.child h.pattern_mem) hp)

variable (hsingle : ∀ c ∈ source, c.IsSingle) (hsource : doc.text = source.chars)

include hsingle hsource

theorem spelling_eq : doc.spelling node = '{' :: Text.joinWith [',']
    (bindings.map ImportBinding.property) ++ "\x7d = ".toList ++ awaitedModule module := by
  have hproperties : properties.map doc.spelling = bindings.map ImportBinding.property :=
    map_of_taken h.taken fun _ _ _ htakes => htakes.spelling_eq hsingle hsource
  have hnode : doc.spelling node = _ :=
    (doc.spelling_eq hsingle hsource node).symm.trans (h.layout.spelled_eq hsingle hsource)
  rw [hnode]
  simp only [LayoutWord.spelled, h.object.spelling_eq hsingle hsource, hproperties, h.awaited,
    List.append_nil, List.append_assoc, List.cons_append]
  rfl

/-- In the text of the declarator the local names of all bindings are in the namespace. -/
theorem chars_rendered (hformed : doc.PatternFormed node) :
    (rendered doc source node .on).chars = '{' :: Text.joinWith [',']
      (bindings.map ImportBinding.movedProperty) ++ "\x7d = ".toList ++ awaitedModule module := by
  have hpattern := hformed.child h.pattern_mem
  have hexposes : value.exposes = false := by
    have hnode := hformed.patternShaped.value (by rw [h.kind]; decide)
    exact (of_exposes_eq_false hnode (by rw [h.kind]; decide)).2 value h.value_mem
  have hkept : renderScope doc source value false .off = copied doc source value :=
    render_off_of_exposes (hformed.child h.value_mem) hexposes
  have hmode : ∀ part, childMode node .on part = if part.isField "name" then .bound else .off := by
    intro part
    rw [childMode, h.kind]
    rfl
  have hmoved : properties.map (fun property =>
      (renderScope doc source property false .property).chars) =
      bindings.map ImportBinding.movedProperty :=
    map_of_taken h.taken fun _ _ hp htakes =>
      htakes.chars_moved hsingle hsource (h.object.formed hpattern hp)
  have hlaid := h.layout.chars_splice hsingle hsource fun child =>
    renderScope doc source child false (childMode node .on child)
  rw [LayoutWord.nodes, LayoutWord.nodes, LayoutWord.nodes, LayoutWord.nodes, ← h.shown_eq] at hlaid
  rw [rendered, hlaid]
  simp only [LayoutWord.spelled, hmode, h.nameField, h.valueField.2, if_true, Bool.false_eq_true,
    if_false, hkept, copied, doc.spelling_eq hsingle hsource, h.awaited, List.append_nil,
    h.object.chars_moved hsingle hsource, hmoved, List.append_assoc, List.cons_append]
  rfl

theorem chars_moved (hformed : doc.PatternFormed node) :
    (renderDeclarator node (renderScope doc source node false .on)).chars =
      "(\x7b".toList ++ Text.joinWith [','] (bindings.map ImportBinding.movedProperty) ++
        "\x7d = ".toList ++ awaitedModule module ++ [')'] := by
  have hplain : renderScope doc source node false .on = rendered doc source node .on :=
    render_plain (by rw [h.kind]; decide) (by rw [h.kind]; decide) (by intro hm; cases hm)
      (by intro hm; cases hm)
  have hsome : (node.child? "value").isSome = true :=
    List.find?_isSome.mpr ⟨value, h.value_mem, h.valueField.1⟩
  rw [renderDeclarator, hplain, hsome, if_pos rfl, MappedText.chars_append, MappedText.chars_append,
    MappedText.chars_ofString, MappedText.chars_ofString, h.chars_rendered hsingle hsource hformed]
  rfl

end Destructures

/-! ### The declaration -/

theorem DeclaresImport.sites_eq (h : doc.DeclaresImport bindings module node)
    (hformed : doc.PatternFormed node) :
    ((doc.sites node true).flatMap SyntaxTree.binders).map doc.spelling =
        bindings.map ImportBinding.localName ∧
      ∀ site ∈ doc.sites node true, site.KeepsExpressions := by
  obtain ⟨hk, declarator, pattern, equals, value, properties, hlaid, hdestructures⟩ := h
  have hnodes : node.constructs = [declarator] := hlaid.constructs
  have hdeclarator : doc.PatternFormed declarator :=
    hformed.construct (by rw [hnodes]; exact List.mem_singleton_self declarator)
  have hsites : doc.sites node true = [pattern] := by
    rw [sites_declaration doc true (Or.inr hk), Bool.or_true, if_pos rfl, hnodes, List.flatMap_singleton,
      hdestructures.names_eq]
  rw [hsites, List.flatMap_singleton]
  refine ⟨hdestructures.object.names (hdeclarator.child hdestructures.pattern_mem) hdestructures.taken,
    fun site hs => ?_⟩
  rw [List.mem_singleton.mp hs]
  exact hdestructures.keepsExpressions hdeclarator

section Spelled

variable (hsingle : ∀ c ∈ source, c.IsSingle) (hsource : doc.text = source.chars)

include hsingle hsource

theorem DeclaresImport.spelling_eq (h : doc.DeclaresImport bindings module node) :
    doc.spelling node = importDeclaration bindings module := by
  obtain ⟨_, declarator, pattern, equals, value, properties, hlaid, hdestructures⟩ := h
  rw [hlaid.spelling_eq hsingle hsource]
  delta importDeclaration
  simp only [LayoutWord.spelled, hdestructures.spelling_eq hsingle hsource, List.append_nil,
    List.append_assoc, List.cons_append]
  rfl

theorem DeclaresImport.chars_moved (h : doc.DeclaresImport bindings module node)
    (hformed : doc.PatternFormed node) :
    (renderScope doc source node true .off).chars = importAssignment bindings module := by
  obtain ⟨hk, declarator, pattern, equals, value, properties, hlaid, hdestructures⟩ := h
  have hnodes : node.constructs = [declarator] := hlaid.constructs
  have hdeclarator : doc.PatternFormed declarator :=
    hformed.construct (by rw [hnodes]; exact List.mem_singleton_self declarator)
  obtain ⟨_, _, _, hclosing, hend⟩ := hlaid.layout
  have hback : (source.segment (doc.past declarator) (doc.past node)).chars = [';'] := by
    rw [MappedText.chars_segment hsingle, ← hsource, ← hend]
    exact hclosing
  have hmoved := hdestructures.chars_moved hsingle hsource hdeclarator
  rw [render_declaration (Or.inr hk), Bool.or_true, if_pos rfl, renderMoved, hnodes]
  simp only [List.head?_cons, List.getLast?_singleton, parts_eq]
  rw [← SyntaxTree.constructs, hnodes]
  delta importAssignment
  simp only [pieces, List.map_cons, List.map_nil, Piece.splice, MappedText.segment_self,
    List.nil_append, List.append_nil, MappedText.chars_append, MappedText.chars_ofChars,
    MappedText.chars_ofString, hmoved, hback, List.append_assoc]
  rfl

end Spelled

end Document

/-! ### Both passes -/

theorem splice_around {lo hi : Nat} {before after : List SyntaxTree}
    (h : doc.Row lo hi (before ++ node :: after)) (source : MappedText)
    (text : SyntaxTree → MappedText) :
    Piece.splice source lo hi (doc.pieces text (before ++ node :: after)) =
      Piece.splice source lo (doc.first node) (doc.pieces text before) ++ text node ++
        Piece.splice source (doc.past node) hi (doc.pieces text after) := by
  induction before generalizing lo with
  | nil => rfl
  | cons item before ih =>
    obtain ⟨_, _, hrest⟩ := h
    have htail := ih hrest
    rw [Document.pieces] at htail
    rw [List.cons_append, Document.pieces, Document.pieces, List.map_cons, List.map_cons, Piece.splice,
      Piece.splice, htail, Document.pieces]
    simp only [List.append_assoc]

theorem splice_widened {lo hi : Nat} {items : List SyntaxTree} (h : doc.Row lo hi items)
    (hend : hi ≤ source.length) (text : SyntaxTree → MappedText) :
    Piece.splice source 0 source.length (doc.pieces text items) =
      source.take lo ++ Piece.splice source lo hi (doc.pieces text items) ++ source.drop hi := by
  have hbefore : Piece.Row 0 lo [] := Nat.zero_le lo
  have hafter : Piece.Row hi source.length [] := hend
  have hfront := Piece.splice_append source hbefore (h.pieces text)
  have hrow : Piece.Row 0 hi ([] ++ doc.pieces text items) := (h.widen (Nat.zero_le lo)).pieces text
  have hback := Piece.splice_append source hrow hafter
  rw [List.nil_append] at hfront hback
  rw [List.append_nil] at hback
  rw [hback, hfront, Piece.splice, Piece.splice, MappedText.segment, MappedText.segment,
    List.take_length, List.drop_zero]

theorem exists_assignment {tree body : SyntaxTree} {before after : List SyntaxTree}
    (hsingle : ∀ c ∈ source, c.IsSingle) (hflag : tree.info.hasError = false)
    (hbody : (Document.ofTree source.chars tree).wrappedBody source = .ok body)
    (hformed : (Document.ofTree source.chars tree).PatternFormed body)
    (hconstructs : body.constructs = before ++ node :: after)
    (h : (Document.ofTree source.chars tree).DeclaresImport bindings module node) :
    let doc := Document.ofTree source.chars tree
    ∃ assignment names, assignment.chars = importAssignment bindings module ∧
      names.map doc.spelling = bindings.map ImportBinding.localName ∧
      doc.Moves source (doc.first node) (doc.past node) assignment (doc.changes source node true)
        names ∧
      applyScopePass source tree = .ok (
        Piece.splice source 0 (doc.first node) (doc.pieces (renderStatement doc source body) before) ++
          assignment ++
        Piece.splice source (doc.past node) source.length
          (doc.pieces (renderStatement doc source body) after)) := by
  intro doc
  have hin : node ∈ body.constructs := by
    rw [hconstructs]
    exact List.mem_append_right before List.mem_cons_self
  have hnode := hformed.construct hin
  have hrow : doc.Row (doc.first body) (doc.past body) body.constructs := hformed.shaped.ordered.filter _
  obtain ⟨hnames, hkeeps⟩ := h.sites_eq hnode
  obtain ⟨edits, hplans, hwithin, hpatch⟩ :=
    exists_planScope source hformed.1 (kind_of_wrappedBody hbody)
  have hend : doc.past body ≤ source.length := by
    rw [← MappedText.length_chars hsingle]
    exact hformed.1.1.past_le
  have hedited := editBody_of_within hflag hbody hplans hwithin (Nat.le_of_lt hformed.lt) hend
  have hwide : doc.Row 0 source.length (body.constructs ++ []) :=
    (hrow.widen (Nat.zero_le _)).append hend
  rw [List.append_nil] at hwide
  have hrendered : renderStatement doc source body node = renderScope doc source node true .off := by
    rw [renderStatement, h.1]
    rfl
  refine ⟨renderScope doc source node true .off, (doc.sites node true).flatMap SyntaxTree.binders,
    h.chars_moved hsingle rfl hnode, hnames, moves_statement hnode hkeeps, ?_⟩
  rw [applyScopePass, hedited, hpatch, renderBody, ← splice_widened hrow hend]
  rw [hconstructs] at hwide ⊢
  rw [splice_around hwide, hrendered]

/-- An import that stands for a declaration after the first pass is an assignment to the namespace after
the second, if the second is given the tree of that declaration: every local name of the import is
assigned there, each once and in order, and nothing else moves. -/
theorem passes_assign_import (source : MappedText) (tree body : SyntaxTree)
    (hsingle : ∀ c ∈ source, c.IsSingle) (hflag : tree.info.hasError = false)
    (hbody : (Document.ofTree source.chars tree).wrappedBody source = .ok body)
    (hwf : (Document.ofTree source.chars tree).WithImports body)
    {before after : List SyntaxTree} {node specifier : SyntaxTree}
    (himports : body.imports = before ++ node :: after) (hspecifier : node.specifier = some specifier)
    (hsome : importBindings node ≠ [])
    (hreach : ∀ b ∈ importBindings node, (Document.ofTree source.chars tree).NamesReach b) :
    let doc := Document.ofTree source.chars tree
    let bindings := (importBindings node).map doc.importBinding
    let module := doc.spelling specifier
    let front := Piece.splice source 0 (doc.first node) (doc.pieces (importText doc source) before)
    let back := Piece.splice source (doc.past node) source.length
      (doc.pieces (importText doc source) after)
    ∃ declared imported, declared.chars = importDeclaration bindings module ∧
      imported = front ++ declared ++ back ∧ applyImportPass source tree = .ok imported ∧
      ∀ tree' body' declaration before' after',
        let doc' := Document.ofTree imported.chars tree'
        let text := renderStatement doc' imported body'
        tree'.info.hasError = false → doc'.wrappedBody imported = .ok body' →
        doc'.PatternFormed body' → body'.constructs = before' ++ declaration :: after' →
        doc'.first declaration = front.length → doc'.DeclaresImport bindings module declaration →
        doc'.past declaration = front.length + declared.length ∧
        ∃ assignment names, assignment.chars = importAssignment bindings module ∧
          names.map doc'.spelling = bindings.map ImportBinding.localName ∧
          doc'.Moves imported (doc'.first declaration) (doc'.past declaration) assignment
            (doc'.changes imported declaration true) names ∧
          applyScopePass imported tree' = .ok (
            Piece.splice imported 0 (doc'.first declaration) (doc'.pieces text before') ++ assignment ++
            Piece.splice imported (doc'.past declaration) imported.length
              (doc'.pieces text after')) := by
  intro doc bindings module front back
  obtain ⟨edits, hplans, hrange, hrow, hflush⟩ :=
    exists_planImports hsingle (kind_of_wrappedBody hbody) hwf
  have hnode : node ∈ body.imports := by
    rw [himports]
    exact List.mem_append_right before List.mem_cons_self
  obtain ⟨held, hstatement⟩ := isStatement_of_mem_imports hwf.covers hwf.shaped hnode
  obtain rfl : held = specifier := by
    have hheld := hstatement.specified
    rw [hspecifier] at hheld
    exact (Option.some.inj hheld).symm
  have hdeclared : (importText doc source node).chars = importDeclaration bindings module :=
    chars_importText hsingle rfl hstatement hsome hreach
  have himported := editBody_of_plans hflag hbody hplans hrange
  have hsplit : Piece.splice source 0 source.length (doc.pieces (importText doc source) body.imports) =
      front ++ importText doc source node ++ back := by
    rw [himports] at hrow ⊢
    exact splice_around hrow source _
  rw [hflush, hsplit] at himported
  refine ⟨importText doc source node, _, hdeclared, rfl, himported, ?_⟩
  intro tree' body' declaration before' after' doc' text hflag' hbody' hformed' hconstructs' hfirst' h'
  have hsingle' : ∀ c ∈ front ++ importText doc source node ++ back, c.IsSingle := by
    rw [← hsplit]
    exact isSingle_imported hsingle 0 source.length body.imports
  refine ⟨?_, exists_assignment hsingle' hflag' hbody' hformed' hconstructs' h'⟩
  -- the declaration is spelled like the statement that was put there
  have hspelling : doc'.spelling declaration = importDeclaration bindings module :=
    h'.spelling_eq hsingle' rfl
  have hin : declaration ∈ body'.constructs := by
    rw [hconstructs']
    exact List.mem_append_right before' List.mem_cons_self
  have hcov := (hformed'.construct hin).1.1
  have hlt := hcov.2.2
  have hle : doc'.past declaration ≤ doc'.text.length := hcov.past_le
  have hlength : (doc'.spelling declaration).length = doc'.past declaration - doc'.first declaration := by
    rw [Document.spelling, List.length_drop, List.length_take, Nat.min_eq_left hle]
  rw [hspelling, ← hdeclared, MappedText.length_chars (isSingle_importText hsingle node)] at hlength
  omega

/-- The statements of `f{import d,{a as b,c}from'm'}`. -/
def listedImport : List SyntaxTree :=
  [.node { kind := "import_statement", start := 2, stop := 28 }
    [.node { kind := "import_clause", start := 9, stop := 21 }
      [.leaf "identifier" 9 10,
        .node { kind := "named_imports", start := 11, stop := 21 }
          [.node { kind := "import_specifier", start := 12, stop := 18 }
            [.leaf "identifier" 12 13 "name", .leaf "identifier" 17 18 "alias"],
            .node { kind := "import_specifier", start := 19, stop := 20 }
              [.leaf "identifier" 19 20 "name"]]],
      .leaf "string" 25 28 "source"]]

def keyedPattern (start colon stop : Nat) (target : SyntaxTree) : SyntaxTree :=
  .node { kind := "pair_pattern", start, stop } [.leaf "property_identifier" start colon "key", target]

def nestedPattern (start stop : Nat) (property : SyntaxTree) : SyntaxTree :=
  .node { kind := "object_pattern", start, stop, field := some "value" } [property]

/-- The properties in `f{var {_:{default:d},_:{a:b},_:{c}} = {_:await __import('m')};}`. -/
def listedProperties : List SyntaxTree :=
  [keyedPattern 7 8 20 (nestedPattern 9 20 (keyedPattern 10 17 19 (.leaf "identifier" 18 19 "value"))),
    keyedPattern 21 22 28 (nestedPattern 23 28 (keyedPattern 24 25 27 (.leaf "identifier" 26 27 "value"))),
    keyedPattern 29 30 34 (nestedPattern 31 34 (.leaf "shorthand_property_identifier_pattern" 32 33))]

def listedDeclaration : SyntaxTree :=
  .node { kind := "variable_declaration", start := 2, stop := 62 }
    [.token "var" 2 5,
      .node { kind := "variable_declarator", start := 6, stop := 61 }
        [.node { kind := "object_pattern", start := 6, stop := 35, field := some "name" } listedProperties,
          .token "=" 36 37, .leaf "object" 38 61 "value"],
      .token ";" 61 62]

def listedBindings : List ImportBinding :=
  [.standard ['d'], .renamed ['a'] ['b'], .named ['c']]

def listedText : List Char := "f\x7b".toList ++ importDeclaration listedBindings "'m'".toList ++ ['}']

theorem declaresImport_listed :
    let doc := Document.ofTree listedText (SyntaxTree.ofBlock 63 1 63 [listedDeclaration])
    doc.DeclaresImport listedBindings "'m'".toList listedDeclaration := by
  intro doc
  have htaken : List.Forall₂ doc.TakesFrom listedBindings listedProperties := by
    refine .cons ?_ (.cons ?_ (.cons ?_ .nil))
    · refine ⟨_, _, ⟨rfl, ⟨rfl, by decide⟩, .inl rfl, by decide, by decide, rfl, rfl⟩, ?_⟩
      exact .standard ⟨rfl, rfl, by decide⟩
        ⟨rfl, ⟨rfl, by decide⟩, .inl rfl, by decide, by decide, rfl, rfl⟩ ⟨rfl, by decide⟩
    · refine ⟨_, _, ⟨rfl, ⟨rfl, by decide⟩, .inl rfl, by decide, by decide, rfl, rfl⟩, ?_⟩
      exact .renamed ⟨rfl, rfl, by decide⟩
        ⟨rfl, ⟨rfl, by decide⟩, .inl rfl, by decide, by decide, rfl, rfl⟩ ⟨rfl, by decide⟩
    · refine ⟨_, _, ⟨rfl, ⟨rfl, by decide⟩, .inl rfl, by decide, by decide, rfl, rfl⟩, ?_⟩
      exact .named ⟨rfl, rfl, by decide⟩ ⟨rfl, by decide⟩
  refine ⟨rfl, _, _, _, _, _, ⟨rfl, ?_⟩, ⟨rfl, rfl, rfl, ⟨rfl, rfl⟩, ⟨rfl, rfl⟩, ?_, ⟨rfl, rfl, ?_⟩,
    htaken, ?_⟩⟩
  · decide
  · decide
  · decide
  · decide

theorem passes_assign_import_applied :
    let source := MappedText.ofString "f\x7bimport d,\x7ba as b,c\x7dfrom'm'\x7d"
    ∃ imported, applyImportPass source (SyntaxTree.ofBlock 29 1 29 listedImport) = .ok imported ∧
      imported.chars = listedText ∧
      ∃ assignment, assignment.chars =
          ("void ((\x7b_:\x7bdefault:__global.d\x7d,_:\x7ba:__global.b\x7d,_:\x7bc:__global.c\x7d\x7d = " ++
            "\x7b_:await __import('m')\x7d));").toList ∧
        applyScopePass imported (SyntaxTree.ofBlock 63 1 63 [listedDeclaration]) =
          .ok (imported.segment 0 2 ++ assignment ++ imported.segment 62 imported.length) := by
  intro source
  have hwf : (Document.ofTree source.chars (SyntaxTree.ofBlock 29 1 29 listedImport)).WithImports
      (.node { kind := "statement_block", start := 1, stop := 29, field := some "body" } listedImport) := by
    decide
  obtain ⟨declared, imported, hdeclared, himported, hpass, hsecond⟩ :=
    passes_assign_import source _ _ (MappedText.isSingle_ofString _) rfl rfl hwf
      (show SyntaxTree.imports _ = [] ++ _ :: [] from rfl) rfl (by decide) (by decide)
  have hchars : imported.chars = listedText := by
    rw [himported, MappedText.chars_append, MappedText.chars_append, hdeclared]
    decide
  have hlaid := hsecond (SyntaxTree.ofBlock 63 1 63 [listedDeclaration])
    (.node { kind := "statement_block", start := 1, stop := 63, field := some "body" }
      [listedDeclaration]) listedDeclaration [] []
  rw [hchars] at hlaid
  obtain ⟨_, assignment, names, hassigned, _, _, hscope⟩ := hlaid rfl rfl (by decide) rfl
    (by decide) declaresImport_listed
  refine ⟨imported, hpass, hchars, assignment, ?_, hscope⟩
  rw [hassigned]
  decide

end NotebookCell
