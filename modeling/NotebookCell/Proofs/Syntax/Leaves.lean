import NotebookCell.Proofs.Syntax.Nodes
import NotebookCell.Script.Character

/-!
# Leaves

The leaves of a faithful tree make up its text: they stand one behind the other, and between them are
separators alone. So every other character of a range is in a leaf of that range.
-/

namespace NotebookCell

namespace SyntaxTree

def leaves (tree : SyntaxTree) : List SyntaxTree :=
  tree.fold fun node children =>
    if children.isEmpty then [node] else children.flatMap Prod.snd

theorem leaves_eq (tree : SyntaxTree) :
    tree.leaves = if tree.children.isEmpty then [tree] else tree.children.flatMap leaves := by
  rw [leaves, fold_eq, List.isEmpty_map, List.flatMap_map]
  rfl

theorem leaves_of_leaf {tree : SyntaxTree} (h : tree.children = []) : tree.leaves = [tree] := by
  rw [leaves_eq, h]
  rfl

theorem leaves_of_inner {tree child : SyntaxTree} (h : child ∈ tree.children) :
    tree.leaves = tree.children.flatMap leaves := by
  rw [leaves_eq, if_neg]
  rw [List.isEmpty_iff]
  exact List.ne_nil_of_mem h

theorem leaves_ne_nil (tree : SyntaxTree) : tree.leaves ≠ [] := by
  induction tree using SyntaxTree.induction with
  | node info children ih =>
    cases children with
    | nil =>
      rw [leaves_of_leaf rfl]
      exact List.cons_ne_nil _ _
    | cons child children =>
      have hin : child ∈ (node info (child :: children)).children := List.mem_cons_self
      have hchild := ih child List.mem_cons_self
      rw [leaves_of_inner hin]
      exact List.append_ne_nil_of_left_ne_nil hchild _

theorem flatMap_leaves {children : List SyntaxTree} (h : ∀ child ∈ children, child.children = []) :
    children.flatMap leaves = children := by
  induction children with
  | nil => rfl
  | cons child children ih =>
    rw [List.flatMap_cons, leaves_of_leaf (h child List.mem_cons_self),
      ih fun c hc => h c (List.mem_cons_of_mem child hc)]
    rfl

end SyntaxTree

namespace Document

/-- There are only separators between two places. -/
def Blank (doc : Document) (lo hi : Nat) : Prop :=
  ∀ c ∈ (doc.text.take hi).drop lo, Script.isSeparator c = true

/-- Leaves make up the text from `lo` up to `hi`. -/
def Tiles (doc : Document) (lo hi : Nat) : List SyntaxTree → Prop
  | [] => lo ≤ hi ∧ doc.Blank lo hi
  | leaf :: leaves =>
    doc.Covers leaf ∧ lo ≤ doc.first leaf ∧ doc.Blank lo (doc.first leaf) ∧
      Tiles doc (doc.past leaf) hi leaves

instance (doc : Document) (lo hi : Nat) : Decidable (doc.Blank lo hi) :=
  List.decidableBAll _ ((doc.text.take hi).drop lo)

instance decidableTiles (doc : Document) (lo hi : Nat) :
    (leaves : List SyntaxTree) → Decidable (doc.Tiles lo hi leaves)
  | [] => inferInstanceAs (Decidable (_ ∧ _))
  | leaf :: leaves =>
    have := decidableTiles doc (doc.past leaf) hi leaves
    inferInstanceAs (Decidable (_ ∧ _ ∧ _ ∧ _))

variable {doc : Document} {lo hi k : Nat} {leaves others : List SyntaxTree} {leaf node : SyntaxTree}
  {c : Char}

theorem blank_self (doc : Document) (lo : Nat) : doc.Blank lo lo := by
  intro c hc
  rw [List.drop_take_self] at hc
  cases hc

theorem Tiles.row (h : doc.Tiles lo hi leaves) : doc.Row lo hi leaves := by
  induction leaves generalizing lo with
  | nil => exact h.1
  | cons leaf leaves ih => exact ⟨h.1, h.2.1, ih h.2.2.2⟩

/-- Leaves one behind the other are cut after the last of the first ones. -/
theorem Tiles.split (h : doc.Tiles lo hi (leaves ++ others)) :
    ∃ mid, doc.Tiles lo mid leaves ∧ doc.Tiles mid hi others ∧
      ∀ last ∈ leaves.getLast?, doc.past last = mid := by
  induction leaves generalizing lo with
  | nil => exact ⟨lo, ⟨Nat.le_refl lo, blank_self doc lo⟩, h, fun _ hlast => by cases hlast⟩
  | cons leaf leaves ih =>
    obtain ⟨hcov, hle, hblank, hrest⟩ := h
    obtain ⟨mid, hfront, hback, hlast⟩ := ih hrest
    cases leaves with
    | nil =>
      exact ⟨doc.past leaf, ⟨hcov, hle, hblank, Nat.le_refl _, blank_self doc _⟩, hrest,
        fun last hl => by cases hl; rfl⟩
    | cons next leaves =>
      refine ⟨mid, ⟨hcov, hle, hblank, hfront⟩, hback, fun last hl => hlast last ?_⟩
      rw [List.getLast?_cons_cons] at hl
      exact hl

theorem mem_of_getElem?_text (hc : doc.text[k]? = some c) (hlo : lo ≤ k) (hhi : k < hi) :
    c ∈ (doc.text.take hi).drop lo := by
  apply List.mem_of_getElem? (i := k - lo)
  rw [List.getElem?_drop, Nat.add_sub_cancel' hlo, List.getElem?_take_of_lt hhi]
  exact hc

theorem Tiles.exists_covering (h : doc.Tiles lo hi leaves) (hlo : lo ≤ k) (hhi : k < hi)
    (hc : doc.text[k]? = some c) (hseparator : Script.isSeparator c = false) :
    ∃ leaf ∈ leaves, doc.first leaf ≤ k ∧ k < doc.past leaf := by
  induction leaves generalizing lo with
  | nil =>
    have hblank := h.2 c (mem_of_getElem?_text hc hlo hhi)
    rw [hseparator] at hblank
    cases hblank
  | cons leaf leaves ih =>
    obtain ⟨_, _, hblank, hrest⟩ := h
    by_cases hfirst : k < doc.first leaf
    · have hgap := hblank c (mem_of_getElem?_text hc hlo hfirst)
      rw [hseparator] at hgap
      cases hgap
    · by_cases hpast : k < doc.past leaf
      · exact ⟨leaf, List.mem_cons_self, by omega, hpast⟩
      · obtain ⟨other, hother, hcovered⟩ := ih hrest (by omega)
        exact ⟨other, List.mem_cons_of_mem leaf hother, hcovered⟩

theorem getElem?_text_of_spelling (h : (doc.spelling node)[k]? = some c) :
    doc.text[doc.first node + k]? = some c ∧ doc.first node + k < doc.past node := by
  rw [spelling, List.getElem?_drop, List.getElem?_take] at h
  split at h
  · rename_i hlt
    exact ⟨h, hlt⟩
  · cases h

theorem mem_spelling (hc : doc.text[k]? = some c) (hlo : doc.first node ≤ k)
    (hhi : k < doc.past node) : c ∈ doc.spelling node := mem_of_getElem?_text hc hlo hhi

end Document

end NotebookCell
