import Mathlib.Data.List.Infix
import NotebookCell.Proofs.Scope.Rendering

/-!
# Bound names

Which names the statements of a body bind for the cell, said from the grammar alone: where a
declaration binds, which nodes of its pattern are names, and which parts of a pattern are expressions.
-/

namespace NotebookCell

def namedKinds : List String := "class_declaration" :: functionDeclarationKinds

def nameKinds : List String := ["identifier", "shorthand_property_identifier_pattern"]

def patternKinds : List String :=
  ["object_pattern", "array_pattern", "rest_pattern", "pair_pattern", "assignment_pattern",
    "object_assignment_pattern"]

def valueKinds : List String :=
  ["variable_declarator", "assignment_pattern", "object_assignment_pattern"]

/-- The kinds of a node that only an object pattern holds. -/
def memberKinds : List String :=
  ["shorthand_property_identifier_pattern", "pair_pattern", "object_assignment_pattern"]

namespace SyntaxTree

/-- The child is where the names of a pattern are: a default has them on its left, a property in its
value. -/
def holdsNames (pattern child : SyntaxTree) : Bool :=
  if pattern.kind == "assignment_pattern" || pattern.kind == "object_assignment_pattern" then
    child.isField "left"
  else if pattern.kind == "pair_pattern" then child.isField "value"
  else patternKinds.contains pattern.kind && child.isConstruct

/-- The names that a binding site binds. A site is a pattern, or a declaration with a name of its own,
which then stands for its name. -/
def binders (site : SyntaxTree) : List SyntaxTree :=
  site.fold fun node children =>
    if namedKinds.contains node.kind || nameKinds.contains node.kind then [node]
    else (children.filter fun child => holdsNames node child.1).flatMap Prod.snd

/-- The parts of a pattern that are expressions and no defaults: the keys of its properties, and targets
that are no names. -/
def patternExpressions (site : SyntaxTree) : List SyntaxTree :=
  site.fold fun node children =>
    if namedKinds.contains node.kind || nameKinds.contains node.kind then []
    else if patternKinds.contains node.kind then
      children.flatMap fun child =>
        if holdsNames node child.1 then child.2
        else if node.kind == "pair_pattern" && child.1.isConstruct then [child.1]
        else []
    else [node]

/-- A pattern stands in the node outside of functions. -/
def holdsPattern (tree : SyntaxTree) : Bool :=
  tree.fold fun node children =>
    !scopeKinds.contains node.kind &&
      (node.kind == "object_pattern" || node.kind == "array_pattern" ||
        children.any fun child => child.2)

/-- No pattern stands in an expression of the pattern. -/
def KeepsExpressions (site : SyntaxTree) : Prop :=
  ∀ expression ∈ site.patternExpressions, expression.holdsPattern = false

instance (site : SyntaxTree) : Decidable site.KeepsExpressions :=
  inferInstanceAs (Decidable (∀ expression ∈ site.patternExpressions, _))

/-- What the grammar says of the patterns around and in a node: parts of object patterns stand nowhere
else, names have no parts, declarators stand in declarations, and neither values nor classes expose
statements. -/
@[mk_iff] structure PatternShaped (node : SyntaxTree) : Prop where
  member : node.kind ≠ "object_pattern" → node.kind ≠ "object_assignment_pattern" →
    ∀ child ∈ node.children, child.kind ∉ memberKinds
  property : node.kind = "object_pattern" →
    ∀ child ∈ node.constructs, child.kind = "rest_pattern" ∨ child.kind ∈ memberKinds
  withDefault : node.kind = "object_assignment_pattern" →
    ∀ left ∈ node.fields "left", left.kind ≠ "identifier"
  name : node.kind ∈ nameKinds → node.constructs = []
  declarator : node.kind ≠ "lexical_declaration" → node.kind ≠ "variable_declaration" →
    ∀ child ∈ node.children, child.kind ≠ "variable_declarator"
  value : node.kind ∈ valueKinds → node.exposes = false
  class_ : node.kind = "class_declaration" → ∀ child ∈ node.children, child.exposes = false

instance (node : SyntaxTree) : Decidable node.PatternShaped :=
  decidable_of_iff' _ (patternShaped_iff node)

end SyntaxTree

namespace Document

variable (doc : Document)

/-- A loop over items or keys whose head declares by `var`. -/
def declaresByVar (node : SyntaxTree) : Bool :=
  (node.child? "kind").any fun kind => doc.spelling kind == "var".toList

/-- The binding sites of a statement whose names belong to the cell, given whether the statement stands
directly in the body. Functions and declarations by `var` bind for the cell wherever they are reached,
other declarations only directly in the body. -/
def sites (node : SyntaxTree) : Bool → List SyntaxTree :=
  node.fold fun node children top =>
    if functionDeclarationKinds.contains node.kind then [node]
    else if node.kind == "class_declaration" then if top then [node] else []
    else if (node.kind == "lexical_declaration" || node.kind == "variable_declaration") &&
        (doc.keyword node == "var".toList || top) then
      node.constructs.flatMap fun declarator => declarator.fields "name"
    else if node.kind == "for_in_statement" && doc.declaresByVar node then
      (node.child? "left").toList ++
        (children.filter fun child => child.1.isConstruct &&
          !(node.child? "left").any child.1.sameNode).flatMap fun child => child.2 false
    else if scopeKinds.contains node.kind then []
    else (children.filter fun child => child.1.isConstruct).flatMap fun child => child.2 false

def bodySites (body : SyntaxTree) : List SyntaxTree :=
  body.constructs.flatMap fun statement => doc.sites statement true

/-- The names that the statements of a body bind for the cell, in order. -/
def boundNames (body : SyntaxTree) : List SyntaxTree :=
  (doc.bodySites body).flatMap SyntaxTree.binders

/-- The text that moves a name to the namespace: in front of an identifier, behind a shorthand property,
and for a declaration with a name of its own in front of the declaration. -/
def qualification (name : SyntaxTree) : Piece :=
  if name.kind == "identifier" then
    { start := doc.first name, stop := doc.first name, text := .ofChars namespaceDot none }
  else if name.kind == "shorthand_property_identifier_pattern" then
    { start := doc.past name, stop := doc.past name,
      text := .ofChars (':' :: (namespaceDot ++ doc.spelling name)) none }
  else
    { start := doc.first name, stop := doc.first name,
      text := .ofChars (namespaceDot ++ doc.declaredName name) none }

end Document

/-! ### Where a statement changes -/

def Piece.inserted (place : Nat) (text : String) : Piece :=
  { start := place, stop := place, text := .ofString text }

def Piece.qualifies (piece : Piece) : Bool := decide (namespaceDot <:+: piece.text.chars)

namespace Document

variable (doc : Document) (source : MappedText)

def assignmentChanges (node : SyntaxTree) : List Piece :=
  [.inserted (doc.first node) "void (", doc.qualification node, .inserted (doc.first node) "=",
    .inserted (doc.past node) ");"]

/-- A declarator is put into parentheses, and the names of its pattern move. -/
def declaratorChanges (node : SyntaxTree) : List Piece :=
  .inserted (doc.first node) "(" ::
    (((node.fields "name").flatMap SyntaxTree.binders).map doc.qualification ++
      [.inserted (doc.past node) (if (node.child? "value").isSome then ")" else " = undefined)")])

/-- The keyword of a declaration, with all that stands in front of the first declarator, gives way to
`void (`, which ends behind the last declarator. -/
def declarationChanges (node : SyntaxTree) : List Piece :=
  match node.constructs.head?, node.constructs.getLast? with
  | some first, some last =>
    { start := doc.first node, stop := doc.first first,
      text := .ofChars "void (".toList (source.cell (doc.first node)).firstOrigin } ::
      (node.constructs.flatMap doc.declaratorChanges ++ [.inserted (doc.past last) ")"])
  | _, _ => []

/-- The keyword in the head of a loop goes, and the names of its target move. -/
def headChanges (node : SyntaxTree) : List Piece :=
  match node.child? "kind", node.child? "left" with
  | some kind, some left =>
    { start := doc.first kind, stop := doc.first left, text := [] } ::
      left.binders.map doc.qualification
  | _, _ => []

/-- All changes in a statement, given whether it stands directly in the body. -/
def changes (node : SyntaxTree) : Bool → List Piece :=
  node.fold fun node children top =>
    if functionDeclarationKinds.contains node.kind then doc.assignmentChanges node
    else if node.kind == "class_declaration" then if top then doc.assignmentChanges node else []
    else if (node.kind == "lexical_declaration" || node.kind == "variable_declaration") &&
        (doc.keyword node == "var".toList || top) then
      doc.declarationChanges source node
    else if node.kind == "for_in_statement" && doc.declaresByVar node then
      doc.headChanges node ++
        (children.filter fun child => child.1.isConstruct &&
          !(node.child? "left").any child.1.sameNode).flatMap fun child => child.2 false
    else if scopeKinds.contains node.kind then []
    else (children.filter fun child => child.1.isConstruct).flatMap fun child => child.2 false

def returnChanges (node : SyntaxTree) : List Piece :=
  .inserted (doc.first node) "return (" ::
    node.constructs.flatMap fun part =>
      doc.changes source part false ++
        (if node.constructs.head?.any part.sameNode then [.inserted (doc.past part) ")"] else [])

def bodyChanges (body : SyntaxTree) : List Piece :=
  body.constructs.flatMap fun statement =>
    if statement.kind == "expression_statement" && body.constructs.getLast?.any statement.sameNode
    then doc.returnChanges source statement
    else doc.changes source statement true

end Document

/-! ### Folds at a node -/

theorem filter_fst_flatMap {α β : Type} (children : List SyntaxTree) (f : SyntaxTree → α)
    (shown : SyntaxTree → Bool) (g : α → List β) :
    ((children.map fun child => (child, f child)).filter fun child => shown child.1).flatMap
        (fun child => g child.2) =
      (children.filter shown).flatMap fun child => g (f child) := by
  rw [List.filter_map, List.flatMap_map]
  rfl

namespace SyntaxTree

variable {node : SyntaxTree}

theorem holdsNames_structure {child : SyntaxTree} (hk : node.kind = "object_pattern" ∨
    node.kind = "array_pattern" ∨ node.kind = "rest_pattern") :
    holdsNames node child = child.isConstruct := by
  rcases hk with hk | hk | hk <;> rw [holdsNames, hk] <;> rfl

theorem holdsNames_pair {child : SyntaxTree} (hk : node.kind = "pair_pattern") :
    holdsNames node child = child.isField "value" := by
  rw [holdsNames, hk]
  rfl

theorem holdsNames_default {child : SyntaxTree}
    (hk : node.kind = "assignment_pattern" ∨ node.kind = "object_assignment_pattern") :
    holdsNames node child = child.isField "left" := by
  rcases hk with hk | hk <;> rw [holdsNames, hk] <;> rfl

theorem binders_of_name (h : node.kind ∈ namedKinds ∨ node.kind ∈ nameKinds) :
    node.binders = [node] := by
  rw [binders, fold_eq, if_pos]
  rw [Bool.or_eq_true, List.contains_iff_mem, List.contains_iff_mem]
  exact h

theorem binders_of_other (h : node.kind ∉ namedKinds) (h' : node.kind ∉ nameKinds) :
    node.binders = (node.children.filter (holdsNames node)).flatMap binders := by
  rw [binders, fold_eq, if_neg]
  · exact filter_fst_flatMap node.children binders (holdsNames node) id
  · rw [Bool.or_eq_true, List.contains_iff_mem, List.contains_iff_mem, not_or]
    exact ⟨h, h'⟩

theorem binders_of_expression (h : node.kind ∉ namedKinds) (h' : node.kind ∉ nameKinds)
    (hpattern : node.kind ∉ patternKinds) : node.binders = [] := by
  have hnone : ∀ child, holdsNames node child = false := by
    intro child
    simp only [patternKinds, List.mem_cons, List.not_mem_nil, or_false, not_or] at hpattern
    simp only [holdsNames, patternKinds, List.contains_cons, List.contains_nil,
      beq_eq_false_iff_ne.mpr, hpattern, ne_eq, not_false_eq_true, Bool.or_false, Bool.false_and,
      Bool.false_eq_true, if_false]
  rw [binders_of_other h h', List.filter_eq_nil_iff.mpr]
  · rfl
  · intro child _
    rw [hnone child]
    exact Bool.false_ne_true

theorem patternExpressions_of_pattern (h : node.kind ∈ patternKinds) :
    node.patternExpressions = node.children.flatMap fun child =>
      if holdsNames node child then child.patternExpressions
      else if node.kind == "pair_pattern" && child.isConstruct then [child] else [] := by
  have hnamed : ¬(namedKinds.contains node.kind || nameKinds.contains node.kind) = true := by
    simp only [patternKinds, List.mem_cons, List.not_mem_nil, or_false] at h
    rcases h with h | h | h | h | h | h <;> rw [h] <;> decide
  rw [patternExpressions, fold_eq, if_neg hnamed, if_pos (List.contains_iff_mem.mpr h),
    List.flatMap_map]
  rfl

theorem patternExpressions_of_expression (h : node.kind ∉ namedKinds) (h' : node.kind ∉ nameKinds)
    (hpattern : node.kind ∉ patternKinds) : node.patternExpressions = [node] := by
  rw [patternExpressions, fold_eq, if_neg, if_neg]
  · rw [List.contains_iff_mem]
    exact hpattern
  · rw [Bool.or_eq_true, List.contains_iff_mem, List.contains_iff_mem, not_or]
    exact ⟨h, h'⟩

theorem KeepsExpressions.child (h : node.KeepsExpressions) (hk : node.kind ∈ patternKinds)
    {child : SyntaxTree} (hc : child ∈ node.children) (hnames : holdsNames node child = true) :
    child.KeepsExpressions := by
  intro expression hexpression
  apply h expression
  rw [patternExpressions_of_pattern hk]
  refine List.mem_flatMap.mpr ⟨child, hc, ?_⟩
  rw [if_pos hnames]
  exact hexpression

theorem KeepsExpressions.key (h : node.KeepsExpressions) (hk : node.kind = "pair_pattern")
    {child : SyntaxTree} (hc : child ∈ node.constructs) (hvalue : child.isField "value" = false) :
    child.holdsPattern = false := by
  obtain ⟨hchild, hconstruct⟩ := List.mem_filter.mp hc
  have hnames : holdsNames node child = false := by
    rw [holdsNames_pair hk]
    exact hvalue
  apply h child
  rw [patternExpressions_of_pattern (by rw [hk]; decide)]
  refine List.mem_flatMap.mpr ⟨child, hchild, ?_⟩
  rw [hnames, if_neg Bool.false_ne_true, hk, hconstruct, if_pos (by rfl)]
  exact List.mem_singleton_self child

theorem holdsPattern_eq (node : SyntaxTree) :
    node.holdsPattern = (!scopeKinds.contains node.kind &&
      (node.kind == "object_pattern" || node.kind == "array_pattern" ||
        node.children.any holdsPattern)) := by
  rw [holdsPattern, fold_eq, List.any_map]
  rfl

theorem of_holdsPattern_eq_false (h : node.holdsPattern = false) (hscope : node.kind ∉ scopeKinds) :
    node.kind ≠ "object_pattern" ∧ node.kind ≠ "array_pattern" ∧
      ∀ child ∈ node.children, child.holdsPattern = false := by
  have hcontains : scopeKinds.contains node.kind = false := by
    rw [List.contains_eq_mem, decide_eq_false_iff_not]
    exact hscope
  rw [holdsPattern_eq, hcontains, Bool.not_false, Bool.true_and, Bool.or_eq_false_iff,
    Bool.or_eq_false_iff, beq_eq_false_iff_ne, beq_eq_false_iff_ne, List.any_eq_false] at h
  exact ⟨h.1.1, h.1.2, fun child hc => Bool.eq_false_iff.mpr (h.2 child hc)⟩

end SyntaxTree

namespace Document

variable {doc : Document} {node : SyntaxTree} {top : Bool}

theorem filter_others (node : SyntaxTree) :
    (node.constructs.filter fun child => !(node.child? "left").any child.sameNode) =
      node.children.filter fun child =>
        child.isConstruct && !(node.child? "left").any child.sameNode := by
  rw [SyntaxTree.constructs, List.filter_filter]
  apply List.filter_congr
  intro child _
  exact Bool.and_comm _ _

theorem sites_eq (doc : Document) (node : SyntaxTree) (top : Bool) :
    doc.sites node top =
      if functionDeclarationKinds.contains node.kind then [node]
      else if node.kind == "class_declaration" then if top then [node] else []
      else if (node.kind == "lexical_declaration" || node.kind == "variable_declaration") &&
          (doc.keyword node == "var".toList || top) then
        node.constructs.flatMap fun declarator => declarator.fields "name"
      else if node.kind == "for_in_statement" && doc.declaresByVar node then
        (node.child? "left").toList ++
          (node.constructs.filter fun child => !(node.child? "left").any child.sameNode).flatMap
            fun child => doc.sites child false
      else if scopeKinds.contains node.kind then []
      else node.constructs.flatMap fun child => doc.sites child false := by
  have hloop := filter_fst_flatMap node.children doc.sites
    (fun child => child.isConstruct && !(node.child? "left").any child.sameNode)
    fun sites => sites false
  have hinner := filter_fst_flatMap node.children doc.sites SyntaxTree.isConstruct
    fun sites => sites false
  rw [filter_others, ← hloop, SyntaxTree.constructs, ← hinner]
  conv_lhs => rw [sites, SyntaxTree.fold_eq]
  rfl

theorem changes_eq (doc : Document) (source : MappedText) (node : SyntaxTree) (top : Bool) :
    doc.changes source node top =
      if functionDeclarationKinds.contains node.kind then doc.assignmentChanges node
      else if node.kind == "class_declaration" then if top then doc.assignmentChanges node else []
      else if (node.kind == "lexical_declaration" || node.kind == "variable_declaration") &&
          (doc.keyword node == "var".toList || top) then
        doc.declarationChanges source node
      else if node.kind == "for_in_statement" && doc.declaresByVar node then
        doc.headChanges node ++
          (node.constructs.filter fun child => !(node.child? "left").any child.sameNode).flatMap
            fun child => doc.changes source child false
      else if scopeKinds.contains node.kind then []
      else node.constructs.flatMap fun child => doc.changes source child false := by
  have hloop := filter_fst_flatMap node.children (doc.changes source)
    (fun child => child.isConstruct && !(node.child? "left").any child.sameNode)
    fun changes => changes false
  have hinner := filter_fst_flatMap node.children (doc.changes source) SyntaxTree.isConstruct
    fun changes => changes false
  rw [filter_others, ← hloop, SyntaxTree.constructs, ← hinner]
  conv_lhs => rw [changes, SyntaxTree.fold_eq]
  rfl

end Document

end NotebookCell
