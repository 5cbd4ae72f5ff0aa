import NotebookCell.Proofs.Hidden.Outline
import NotebookCell.Proofs.Pass.Mirrors

/-!
# Steps in a view

Insertions at a node, questions for its children and walks into them are mirrored in a view.
-/

namespace NotebookCell

open Planner

/-- The property holds of insertions at nodes that are seen or hidden. -/
structure InsertPermits (doc : Document) (body : SyntaxTree) (P : Edit → Prop) : Prop where
  before : ∀ node, node ∈ body.seen ∨ node ∈ body.hidden → ∀ text,
    P (.insertBefore (doc.first node) (.plain text))
  after : ∀ node, node ∈ body.seen ∨ node ∈ body.hidden → ∀ text,
    P (.insertAfter (doc.past node) (.plain text))

variable {doc view : Document} {body node image : SyntaxTree} {P : Edit → Prop}

section Steps

variable (h : IsView doc body view) (hP : InsertPermits doc body P)

include h hP

theorem mirrors_before (hs : Shows doc body node image) (text : List Char) :
    Mirrors P Eq (before doc node text) (before view image text) := by
  obtain ⟨hstart, hstart'⟩ := h.start_eq hs
  exact mirrors_insert hstart hstart' (hP.before node hs.shown text)

theorem mirrors_after (hs : Shows doc body node image) (text : List Char) :
    Mirrors P Eq (after doc node text) (after view image text) := by
  obtain ⟨hstop, hstop'⟩ := h.stop_eq hs
  exact mirrors_insert hstop hstop' (hP.after node hs.shown text)

end Steps

/-! ### Children -/

theorem mirrors_need {R : SyntaxTree → SyntaxTree → Prop} (field : String)
    (hR : ∀ child, node.child? field = some child → R child (node.imageOf doc child)) :
    Mirrors P R (need node field) (need (node.outline doc) field) := by
  have himage := SyntaxTree.isImage_outline doc node
  unfold need
  rw [himage.child?_eq, himage.kind_eq]
  cases hchild : node.child? field with
  | none => exact mirrors_throw _
  | some child => exact mirrors_pure (hR child hchild)

theorem mirrors_walkAll {walk walk' : SyntaxTree → Planner Unit} {image : SyntaxTree → SyntaxTree}
    {trees : List SyntaxTree} (hconstruct : ∀ tree ∈ trees, (image tree).isConstruct = tree.isConstruct)
    (hwalk : ∀ tree ∈ trees, Mirrors P Eq (walk tree) (walk' (image tree))) :
    Mirrors P Eq (walkAll (trees.map fun tree => (tree, walk tree)))
      (walkAll ((trees.map image).map fun tree => (tree, walk' tree))) := by
  have hfilter : (trees.map image).filter SyntaxTree.isConstruct =
      (trees.filter SyntaxTree.isConstruct).map image := by
    rw [List.filter_map]
    exact congrArg _ (List.filter_congr hconstruct)
  rw [walkAll_map, walkAll_map, hfilter]
  exact Mirrors.forM fun tree ht => hwalk tree (List.mem_filter.mp ht).1

theorem mirrors_walkField {walk walk' : SyntaxTree → Planner Unit} (field : String)
    (hwalk : ∀ child ∈ node.children, Mirrors P Eq (walk child) (walk' (node.imageOf doc child))) :
    Mirrors P Eq (walkField node (node.children.map fun child => (child, walk child)) field)
      (walkField (node.outline doc) ((node.outline doc).children.map fun child => (child, walk' child))
        field) := by
  have himage := SyntaxTree.isImage_outline doc node
  have hfind : (node.outline doc).child? field = (node.child? field).map (node.imageOf doc) :=
    himage.child?_eq field
  unfold walkField
  rw [List.find?_map, List.find?_map]
  unfold SyntaxTree.child? at hfind
  simp only [Function.comp_def]
  rw [hfind, himage.kind_eq]
  cases hchild : node.children.find? (SyntaxTree.isField field) with
  | none => exact mirrors_throw _
  | some child => exact hwalk child (List.mem_of_find?_eq_some hchild)

end NotebookCell
