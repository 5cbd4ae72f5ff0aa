import NotebookCell.Pass.Names
import NotebookCell.Proofs.Syntax.Nesting

/-!
# Hidden nodes

Functions and members of classes are hidden, and so is everything in a function's declaration but its
name. A hidden node stands apart from every other node that is not below it, so that the ends of
nodes that are seen never fall inside of it.
-/

namespace NotebookCell

namespace SyntaxTree

/-- The child is hidden in the node. -/
def hides (node child : SyntaxTree) : Bool :=
  scopeKinds.contains child.kind ||
    (functionDeclarationKinds.contains node.kind && !child.isField "name")

/-- The nodes of a tree that are neither hidden nor below a hidden node. -/
def seen (tree : SyntaxTree) : List SyntaxTree :=
  tree.fold fun node children =>
    node :: children.flatMap fun child => if node.hides child.1 then [] else child.2

def hidden (tree : SyntaxTree) : List SyntaxTree :=
  tree.fold fun node children =>
    children.flatMap fun child => if node.hides child.1 then [child.1] else child.2

variable {tree node child : SyntaxTree}

theorem seen_eq (tree : SyntaxTree) :
    tree.seen = tree :: tree.children.flatMap fun child =>
      if tree.hides child then [] else child.seen := by
  rw [seen, fold_eq, List.flatMap_map]
  rfl

theorem hidden_eq (tree : SyntaxTree) :
    tree.hidden = tree.children.flatMap fun child =>
      if tree.hides child then [child] else child.hidden := by
  rw [hidden, fold_eq, List.flatMap_map]
  rfl

theorem mem_seen_iff : node ∈ tree.seen ↔
    node = tree ∨ ∃ child ∈ tree.children, tree.hides child = false ∧ node ∈ child.seen := by
  rw [seen_eq, List.mem_cons, List.mem_flatMap]
  refine or_congr_right (exists_congr fun child => and_congr_right fun _ => ?_)
  cases tree.hides child <;> simp

theorem mem_hidden_iff : node ∈ tree.hidden ↔ ∃ child ∈ tree.children,
    (tree.hides child = true ∧ node = child) ∨ (tree.hides child = false ∧ node ∈ child.hidden) := by
  rw [hidden_eq, List.mem_flatMap]
  refine exists_congr fun child => and_congr_right fun _ => ?_
  cases tree.hides child <;> simp

theorem mem_seen_self (tree : SyntaxTree) : tree ∈ tree.seen := mem_seen_iff.mpr (Or.inl rfl)

theorem mem_nodes_of_mem_seen (h : node ∈ tree.seen) : node ∈ tree.nodes := by
  induction tree using induction with
  | node info children ih =>
    rcases mem_seen_iff.mp h with rfl | ⟨child, hc, _, hn⟩
    · exact mem_nodes_self _
    · exact mem_nodes_of_child hc (ih child hc hn)

theorem mem_nodes_of_mem_hidden (h : node ∈ tree.hidden) : node ∈ tree.nodes := by
  induction tree using induction with
  | node info children ih =>
    obtain ⟨child, hc, ⟨_, rfl⟩ | ⟨_, hn⟩⟩ := mem_hidden_iff.mp h
    · exact mem_nodes_of_child hc (mem_nodes_self _)
    · exact mem_nodes_of_child hc (ih child hc hn)

theorem mem_seen_of_child (h : node ∈ tree.seen) (hc : child ∈ node.children)
    (hshown : node.hides child = false) : child ∈ tree.seen := by
  induction tree using induction with
  | node info children ih =>
    rcases mem_seen_iff.mp h with rfl | ⟨other, ho, hseen, hn⟩
    · exact mem_seen_iff.mpr (Or.inr ⟨child, hc, hshown, mem_seen_self child⟩)
    · exact mem_seen_iff.mpr (Or.inr ⟨other, ho, hseen, ih other ho hn⟩)

theorem mem_hidden_of_child (h : node ∈ tree.seen) (hc : child ∈ node.children)
    (hhidden : node.hides child = true) : child ∈ tree.hidden := by
  induction tree using induction with
  | node info children ih =>
    rcases mem_seen_iff.mp h with rfl | ⟨other, ho, hseen, hn⟩
    · exact mem_hidden_iff.mpr ⟨child, hc, Or.inl ⟨hhidden, rfl⟩⟩
    · exact mem_hidden_iff.mpr ⟨other, ho, Or.inr ⟨hseen, ih other ho hn⟩⟩

theorem kind_of_hides (hnode : node.kind ∉ functionDeclarationKinds)
    (h : node.hides child = true) : child.kind ∈ scopeKinds := by
  simpa only [hides, List.contains_eq_mem, hnode, decide_false, Bool.false_and, Bool.or_false,
    decide_eq_true_eq] using h

theorem not_function_of_declaration
    (hk : node.kind = "lexical_declaration" ∨ node.kind = "variable_declaration") :
    node.kind ∉ functionDeclarationKinds := by
  rcases hk with hk | hk <;> rw [hk] <;> decide

end SyntaxTree

/-! ### The ends of nodes -/

namespace Document

variable {doc : Document} {tree node h : SyntaxTree}

theorem mem_hidden_or_apart (hnested : ∀ part ∈ tree.nodes, doc.Nested part) (hn : node ∈ tree.seen)
    (hh : h ∈ tree.hidden) : h ∈ node.hidden ∨ doc.Apart node h := by
  induction tree using SyntaxTree.induction with
  | node info children ih =>
    rcases SyntaxTree.mem_seen_iff.mp hn with rfl | ⟨child, hc, hseen, hn⟩
    · exact Or.inl hh
    · obtain ⟨other, ho, hother⟩ := SyntaxTree.mem_hidden_iff.mp hh
      have hbelow : ∀ c ∈ children, ∀ part ∈ c.nodes, doc.Nested part := fun c hc part hp =>
        hnested part (SyntaxTree.mem_nodes_of_child hc hp)
      have hinside := inside_of_mem_nodes (hbelow child hc) (SyntaxTree.mem_nodes_of_mem_seen hn)
      have hinside' : doc.first other ≤ doc.first h ∧ doc.past h ≤ doc.past other := by
        rcases hother with ⟨_, rfl⟩ | ⟨_, hh⟩
        · exact ⟨Nat.le_refl _, Nat.le_refl _⟩
        · exact inside_of_mem_nodes (hbelow other ho) (SyntaxTree.mem_nodes_of_mem_hidden hh)
      rcases apart_of_ordered (hnested _ (SyntaxTree.mem_nodes_self _)).ordered hc ho with rfl | hapart
      · rcases hother with ⟨hhides, _⟩ | ⟨_, hh⟩
        · rw [hseen] at hhides
          cases hhides
        · exact ih child hc (hbelow child hc) hn hh
      · exact Or.inr (hapart.of_inside hinside hinside')

theorem ordered_hidden (hnested : ∀ part ∈ tree.nodes, doc.Nested part) :
    tree.hidden.Pairwise fun a b => doc.past a ≤ doc.first b := by
  induction tree using SyntaxTree.induction with
  | node info children ih =>
    have hbelow : ∀ c ∈ children, ∀ part ∈ c.nodes, doc.Nested part := fun c hc part hp =>
      hnested part (SyntaxTree.mem_nodes_of_child hc hp)
    have hinside : ∀ c ∈ children, ∀ h ∈ (if (SyntaxTree.node info children).hides c then [c]
        else c.hidden), doc.first c ≤ doc.first h ∧ doc.past h ≤ doc.past c := by
      intro c hc h hh
      split at hh
      · rw [List.mem_singleton.mp hh]
        exact ⟨Nat.le_refl _, Nat.le_refl _⟩
      · exact inside_of_mem_nodes (hbelow c hc) (SyntaxTree.mem_nodes_of_mem_hidden hh)
    rw [SyntaxTree.hidden_eq, List.pairwise_flatMap]
    constructor
    · intro c hc
      split
      · exact List.pairwise_singleton _ _
      · exact ih c hc (hbelow c hc)
    · apply (hnested _ (SyntaxTree.mem_nodes_self _)).ordered.imp_of_mem
      intro a b ha hb hab x hx y hy
      exact Nat.le_trans (hinside a ha x hx).2 (Nat.le_trans hab (hinside b hb y hy).1)

/-- No hidden node has this place inside of it. -/
def Edge (doc : Document) (tree : SyntaxTree) (place : Nat) : Prop :=
  ∀ h ∈ tree.hidden, place ≤ doc.first h ∨ doc.past h ≤ place

theorem edges_of_shown (hnested : ∀ part ∈ tree.nodes, doc.Nested part)
    (hn : node ∈ tree.seen ∨ node ∈ tree.hidden) :
    doc.Edge tree (doc.first node) ∧ doc.Edge tree (doc.past node) := by
  have hends : ∀ h ∈ tree.hidden, (doc.first node ≤ doc.first h ∨ doc.past h ≤ doc.first node) ∧
      (doc.past node ≤ doc.first h ∨ doc.past h ≤ doc.past node) := by
    intro h hh
    have hle : doc.first node ≤ doc.past node := by
      rcases hn with hn | hn
      · exact (hnested node (SyntaxTree.mem_nodes_of_mem_seen hn)).le
      · exact (hnested node (SyntaxTree.mem_nodes_of_mem_hidden hn)).le
    have hcases : (doc.first node ≤ doc.first h ∧ doc.past h ≤ doc.past node) ∨
        doc.Apart node h := by
      rcases hn with hn | hn
      · rcases mem_hidden_or_apart hnested hn hh with hin | hapart
        · have hpart := SyntaxTree.mem_nodes_of_mem_seen hn
          exact Or.inl (inside_of_mem_nodes (fun part hp =>
            hnested part (SyntaxTree.nodes_trans hpart hp)) (SyntaxTree.mem_nodes_of_mem_hidden hin))
        · exact Or.inr hapart
      · rcases apart_of_ordered (ordered_hidden hnested) hn hh with rfl | hapart
        · exact Or.inl ⟨Nat.le_refl _, Nat.le_refl _⟩
        · exact Or.inr hapart
    have hleHidden := (hnested h (SyntaxTree.mem_nodes_of_mem_hidden hh)).le
    rcases hcases with hinside | hapart | hapart <;> omega
  exact ⟨fun h hh => (hends h hh).1, fun h hh => (hends h hh).2⟩

end Document

end NotebookCell
