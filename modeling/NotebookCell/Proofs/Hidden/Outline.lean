import Mathlib.Data.List.Basic
import NotebookCell.Proofs.Hidden.Nodes
import NotebookCell.Syntax.Wrapped

/-!
# Outlines

The outline of a document counts in characters, has nothing below the hidden nodes of the body, and
blanks for their characters. Two documents with one outline have the same nodes and the same text
outside of hidden nodes.
-/

namespace NotebookCell

namespace Document

def inChars (doc : Document) (node : SyntaxTree) : NodeInfo :=
  { node.info with start := doc.first node, stop := doc.past node }

def bare (doc : Document) (node : SyntaxTree) : SyntaxTree := .node (doc.inChars node) []

def covers (doc : Document) (nodes : List SyntaxTree) (place : Nat) : Bool :=
  nodes.any fun node => decide (doc.first node ≤ place ∧ place < doc.past node)

def blanked (doc : Document) (nodes : List SyntaxTree) : List Char :=
  doc.text.mapIdx fun place c => if doc.covers nodes place then ' ' else c

end Document

namespace SyntaxTree

/-- The tree in characters, with nothing below hidden nodes. -/
def outline (doc : Document) (tree : SyntaxTree) : SyntaxTree :=
  tree.fold fun node children => .node (doc.inChars node) (children.map fun child =>
    if node.hides child.1 then doc.bare child.1 else child.2)

/-- The tree around the body in characters; in the body, only what is not hidden. -/
def outlineAround (doc : Document) (body : Option SyntaxTree) (tree : SyntaxTree) : SyntaxTree :=
  tree.fold fun node children => .node (doc.inChars node) (children.map fun child =>
    if body.any child.1.sameNode then child.1.outline doc else child.2)

/-- A leaf that is not hidden wherever it stands. -/
def isToken (tree : SyntaxTree) : Bool := tree.children.isEmpty && !scopeKinds.contains tree.kind

/-- The parts of a node whose text is read are tokens. -/
@[mk_iff] structure Legible (node : SyntaxTree) : Prop where
  name : node.kind = "class_declaration" ∨ node.kind ∈ functionDeclarationKinds →
    ∀ name ∈ node.child? "name", name.isToken
  keyword : node.kind ∈ ["lexical_declaration", "variable_declaration", "for_in_statement"] →
    ∀ kind ∈ node.child? "kind", kind.isToken
  opening : node.kind = "lexical_declaration" ∨ node.kind = "variable_declaration" →
    ∀ token ∈ node.children.head?, token.isToken
  shorthand : node.kind = "shorthand_property_identifier_pattern" → node.children = []

instance (node : SyntaxTree) : Decidable node.Legible := decidable_of_iff' _ (legible_iff node)

end SyntaxTree

def Document.outline (doc : Document) (source : MappedText) : Document :=
  let body := (doc.wrappedBody source).toOption
  { text := doc.blanked (body.elim [] SyntaxTree.hidden)
    offsets := List.range (doc.text.length + 1)
    root := doc.root.outlineAround doc body }

/-! ### Images of nodes -/

structure IsImage (doc : Document) (below : SyntaxTree → SyntaxTree) (node image : SyntaxTree) :
    Prop where
  info : image.info = doc.inChars node
  children : image.children = node.children.map below
  infos : ∀ child, (below child).info = doc.inChars child

namespace IsImage

variable {doc : Document} {below : SyntaxTree → SyntaxTree} {node image : SyntaxTree}

theorem kind_below (h : IsImage doc below node image) (child : SyntaxTree) :
    (below child).kind = child.kind := by
  rw [SyntaxTree.kind, h.infos]
  rfl

theorem isConstruct_below (h : IsImage doc below node image) (child : SyntaxTree) :
    (below child).isConstruct = child.isConstruct := by
  rw [SyntaxTree.isConstruct, SyntaxTree.kind, h.infos]
  rfl

theorem isField_below (h : IsImage doc below node image) (field : String) (child : SyntaxTree) :
    (below child).isField field = child.isField field := by
  rw [SyntaxTree.isField, h.infos]
  rfl

theorem constructs_eq (h : IsImage doc below node image) :
    image.constructs = node.constructs.map below := by
  rw [SyntaxTree.constructs, SyntaxTree.constructs, h.children, List.filter_map]
  congr 2
  funext child
  exact h.isConstruct_below child

theorem child?_eq (h : IsImage doc below node image) (field : String) :
    image.child? field = (node.child? field).map below := by
  rw [SyntaxTree.child?, SyntaxTree.child?, h.children, List.find?_map]
  congr 2
  funext child
  exact h.isField_below field child

theorem kind_eq (h : IsImage doc below node image) : image.kind = node.kind := by
  rw [SyntaxTree.kind, h.info]
  rfl

theorem filter_kind (h : IsImage doc below node image) (kind : String) :
    (image.constructs.filter fun child => child.kind == kind) =
      (node.constructs.filter fun child => child.kind == kind).map below := by
  rw [h.constructs_eq, List.filter_map]
  congr 2
  funext child
  exact congrArg (· == kind) (h.kind_below child)

theorem find?_kind (h : IsImage doc below node image) (kind : String) :
    (image.constructs.find? fun child => child.kind == kind) =
      (node.constructs.find? fun child => child.kind == kind).map below := by
  rw [h.constructs_eq, List.find?_map]
  congr 2
  funext child
  exact congrArg (· == kind) (h.kind_below child)

theorem firstConstruct_eq (h : IsImage doc below node image) :
    image.firstConstruct = node.firstConstruct.map below := by
  rw [SyntaxTree.firstConstruct, SyntaxTree.firstConstruct, h.constructs_eq, h.kind_eq]
  cases node.constructs <;> rfl

end IsImage

namespace SyntaxTree

theorem mem_constructs_of_firstConstruct {node part : SyntaxTree} (h : node.firstConstruct = .ok part) :
    part ∈ node.constructs := by
  unfold firstConstruct at h
  split at h
  · cases h
  · rename_i hconstructs
    cases h
    rw [hconstructs]
    exact List.mem_cons_self

def imageOf (doc : Document) (node child : SyntaxTree) : SyntaxTree :=
  if node.hides child then doc.bare child else child.outline doc

theorem outline_eq (doc : Document) (node : SyntaxTree) :
    node.outline doc = .node (doc.inChars node) (node.children.map (node.imageOf doc)) := by
  rw [outline, fold_eq, List.map_map]
  rfl

theorem info_imageOf (doc : Document) (node child : SyntaxTree) :
    (node.imageOf doc child).info = doc.inChars child := by
  unfold imageOf
  split
  · rfl
  · rw [outline_eq]
    rfl

theorem isImage_outline (doc : Document) (node : SyntaxTree) :
    IsImage doc (node.imageOf doc) node (node.outline doc) where
  info := by
    rw [outline_eq]
    rfl
  children := by
    rw [outline_eq]
    rfl
  infos := info_imageOf doc node

theorem hidden_outline (doc : Document) (tree : SyntaxTree) :
    (tree.outline doc).hidden = tree.hidden.map doc.bare := by
  induction tree using induction with
  | node info children ih =>
    have himage := isImage_outline doc (node info children)
    have hhides : ∀ child, ((node info children).outline doc).hides
        ((node info children).imageOf doc child) = (node info children).hides child := by
      intro child
      rw [hides, hides, himage.kind_eq, himage.kind_below, himage.isField_below]
    rw [hidden_eq, hidden_eq, himage.children, List.flatMap_map, List.map_flatMap]
    apply List.flatMap_congr
    intro child hc
    rw [hhides, imageOf]
    split
    · rfl
    · exact ih child hc

end SyntaxTree

/-! ### Places in a view -/

namespace Document

variable {doc view : Document} {node image : SyntaxTree}

theorem covers_hidden (doc : Document) (tree : SyntaxTree) (place : Nat) :
    doc.covers tree.hidden place = (tree.outline doc).hidden.any fun node =>
      decide (node.info.start ≤ place ∧ place < node.info.stop) := by
  rw [SyntaxTree.hidden_outline, List.any_map]
  rfl

theorem charAt_image (hoffsets : view.offsets = List.range (doc.text.length + 1)) {place : Nat}
    (hle : place ≤ doc.text.length) : view.charAt place = .ok place := by
  have hat : view.offsets[place]? = some place := by
    rw [hoffsets, List.getElem?_range (Nat.lt_succ_of_le hle)]
  rw [charAt, hat]

theorem stop_image (htable : doc.offsets = charOffsets doc.text)
    (hoffsets : view.offsets = List.range (doc.text.length + 1)) (hinfo : image.info = doc.inChars node) :
    view.stop image = .ok (doc.past node) := by
  rw [stop, hinfo]
  exact charAt_image hoffsets (past_le_length htable node)

theorem Nested.start_image (h : doc.Nested node) (htable : doc.offsets = charOffsets doc.text)
    (hoffsets : view.offsets = List.range (doc.text.length + 1)) (hinfo : image.info = doc.inChars node) :
    view.start image = .ok (doc.first node) := by
  rw [Document.start, hinfo]
  exact charAt_image hoffsets (Nat.le_trans h.le (past_le_length htable node))

end Document

/-! ### Views -/

/-- The document `view` has of the body what can be seen, where what is read can be seen. -/
structure IsView (doc : Document) (body : SyntaxTree) (view : Document) : Prop where
  table : doc.offsets = charOffsets doc.text
  nested : ∀ node ∈ body.nodes, doc.Nested node
  legible : ∀ node ∈ body.seen, node.Legible
  text : view.text = doc.blanked body.hidden
  offsets : view.offsets = List.range (doc.text.length + 1)

inductive Shows (doc : Document) (body node : SyntaxTree) : SyntaxTree → Prop where
  | seen (h : node ∈ body.seen) : Shows doc body node (node.outline doc)
  | hidden (h : node ∈ body.hidden) (hk : node.kind ∈ scopeKinds) : Shows doc body node (doc.bare node)

section Views

variable {doc view : Document} {body node image other : SyntaxTree} {below : SyntaxTree → SyntaxTree}

theorem Shows.info (h : Shows doc body node image) : image.info = doc.inChars node := by
  cases h with
  | seen h => exact (SyntaxTree.isImage_outline doc node).info
  | hidden h hk => rfl

theorem Shows.kind_eq (h : Shows doc body node image) : image.kind = node.kind := by
  rw [SyntaxTree.kind, h.info]
  rfl

theorem Shows.shown (h : Shows doc body node image) : node ∈ body.seen ∨ node ∈ body.hidden := by
  cases h with
  | seen h => exact Or.inl h
  | hidden h hk => exact Or.inr h

theorem Shows.mem_nodes (h : Shows doc body node image) : node ∈ body.nodes := by
  rcases h.shown with h | h
  · exact SyntaxTree.mem_nodes_of_mem_seen h
  · exact SyntaxTree.mem_nodes_of_mem_hidden h

theorem Shows.of_kind (h : Shows doc body node image) (hk : node.kind ∉ scopeKinds) :
    node ∈ body.seen ∧ image = node.outline doc := by
  cases h with
  | seen h => exact ⟨h, rfl⟩
  | hidden h hscope => exact absurd hscope hk

theorem shows_child (hn : node ∈ body.seen) (hk : node.kind ∉ functionDeclarationKinds)
    {child : SyntaxTree} (hc : child ∈ node.children) :
    Shows doc body child (node.imageOf doc child) := by
  unfold SyntaxTree.imageOf
  split
  · rename_i hhides
    exact .hidden (SyntaxTree.mem_hidden_of_child hn hc hhides) (SyntaxTree.kind_of_hides hk hhides)
  · rename_i hshown
    exact .seen (SyntaxTree.mem_seen_of_child hn hc (Bool.eq_false_iff.mpr hshown))

namespace IsView

variable (h : IsView doc body view)

include h

theorem start_eq (hs : Shows doc body node image) :
    doc.start node = .ok (doc.first node) ∧ view.start image = .ok (doc.first node) := by
  have hnested := h.nested node hs.mem_nodes
  exact ⟨hnested.start_eq h.table, hnested.start_image h.table h.offsets hs.info⟩

theorem stop_eq (hs : Shows doc body node image) :
    doc.stop node = .ok (doc.past node) ∧ view.stop image = .ok (doc.past node) := by
  have hnested := h.nested node hs.mem_nodes
  exact ⟨hnested.stop_eq h.table, Document.stop_image h.table h.offsets hs.info⟩

theorem sameNode_eq {otherImage : SyntaxTree} (hs : Shows doc body node image)
    (ho : Shows doc body other otherImage) : image.sameNode otherImage = node.sameNode other := by
  rw [(h.nested node hs.mem_nodes).sameNode_eq (h.nested other ho.mem_nodes), SyntaxTree.sameNode,
    hs.kind_eq, ho.kind_eq, hs.info, ho.info]
  rfl

theorem spelling_eq (hn : node ∈ body.seen) (hleaf : node.children = []) :
    (view.text.take (doc.past node)).drop (doc.first node) = doc.spelling node := by
  have hnone : node.hidden = [] := by
    rw [SyntaxTree.hidden_eq, hleaf]
    rfl
  have hclear : ∀ place, doc.first node ≤ place → place < doc.past node →
      doc.covers body.hidden place = false := by
    intro place hlo hhi
    rw [Document.covers, List.any_eq_false]
    intro hid hh
    rw [decide_eq_true_eq]
    rcases Document.mem_hidden_or_apart h.nested hn hh with hin | hapart | hapart
    · rw [hnone] at hin
      cases hin
    · omega
    · omega
  rw [Document.spelling, h.text]
  apply List.ext_getElem?
  intro k
  rw [List.getElem?_drop, List.getElem?_drop, List.getElem?_take, List.getElem?_take]
  split
  · rename_i hlt
    rw [Document.blanked, List.getElem?_mapIdx, hclear _ (Nat.le_add_right _ k) hlt]
    simp only [Bool.false_eq_true, if_false, Option.map_id']
  · rfl

theorem nodeText_eq (hn : node ∈ body.seen) (hleaf : node.children = []) :
    doc.nodeText node = .ok (doc.spelling node) ∧
      view.nodeText (node.outline doc) = .ok (doc.spelling node) := by
  obtain ⟨hstart, hstart'⟩ := h.start_eq (.seen hn)
  obtain ⟨hstop, hstop'⟩ := h.stop_eq (.seen hn)
  simp only [Document.nodeText, hstart, hstart', hstop, hstop']
  exact ⟨rfl, congrArg Except.ok (h.spelling_eq hn hleaf)⟩

theorem token (hn : node ∈ body.seen) {child : SyntaxTree} (hc : child ∈ node.children)
    (htoken : child.isToken) (hname : node.kind ∈ functionDeclarationKinds → child.isField "name") :
    Shows doc body child (node.imageOf doc child) ∧ doc.nodeText child = .ok (doc.spelling child) ∧
      view.nodeText (node.imageOf doc child) = .ok (doc.spelling child) := by
  simp only [SyntaxTree.isToken, Bool.and_eq_true, List.isEmpty_iff, Bool.not_eq_true'] at htoken
  have hshown : node.hides child = false := by
    rw [SyntaxTree.hides, htoken.2, Bool.false_or, Bool.and_eq_false_iff, Bool.not_eq_false']
    by_cases hk : node.kind ∈ functionDeclarationKinds
    · exact Or.inr (hname hk)
    · exact Or.inl (by rw [List.contains_eq_mem, decide_eq_false hk])
  have hseen := SyntaxTree.mem_seen_of_child hn hc hshown
  have hbelow : node.imageOf doc child = child.outline doc := by
    rw [SyntaxTree.imageOf, hshown, if_neg Bool.false_ne_true]
  rw [hbelow]
  exact ⟨.seen hseen, h.nodeText_eq hseen htoken.1⟩

end IsView

end Views

/-! ### Outlines can be compared -/

mutual

def SyntaxTree.decEq : (a b : SyntaxTree) → Decidable (a = b)
  | .node info children, .node info' children' =>
    if hinfo : info = info' then
      match SyntaxTree.decEqAll children children' with
      | isTrue hall => isTrue (by rw [hinfo, hall])
      | isFalse hno => isFalse fun h => hno (by cases h; rfl)
    else isFalse fun h => hinfo (by cases h; rfl)

def SyntaxTree.decEqAll : (a b : List SyntaxTree) → Decidable (a = b)
  | [], [] => isTrue rfl
  | [], _ :: _ => isFalse fun h => by cases h
  | _ :: _, [] => isFalse fun h => by cases h
  | a :: as, b :: bs =>
    match SyntaxTree.decEq a b with
    | isTrue hhead =>
      match SyntaxTree.decEqAll as bs with
      | isTrue hrest => isTrue (by rw [hhead, hrest])
      | isFalse hno => isFalse fun h => hno (by cases h; rfl)
    | isFalse hno => isFalse fun h => hno (by cases h; rfl)

end

instance : DecidableEq SyntaxTree := SyntaxTree.decEq

instance : DecidableEq Document := fun a b =>
  decidable_of_iff (a.text = b.text ∧ a.offsets = b.offsets ∧ a.root = b.root) (by
    cases a
    cases b
    simp only [Document.mk.injEq])

end NotebookCell
