import NotebookCell.Syntax.Wrapped

/-!
# Nodes and their ranges

Induction over syntax trees, the nodes of a tree, and the ranges of characters that nodes cover. The
byte offsets of a tree are read through the table of character offsets, which never decreases and
never leaves the text, so a tree whose nodes lie in order says where in the text every node stands.
-/

namespace NotebookCell

theorem flatMap_eq_of_filter {α β : Type} {p : α → Bool} {f : α → List β} {items : List α}
    (h : ∀ item ∈ items, p item = false → f item = []) :
    items.flatMap f = (items.filter p).flatMap f := by
  induction items with
  | nil => rfl
  | cons item items ih =>
    have hrest := ih fun i hi => h i (List.mem_cons_of_mem item hi)
    by_cases hp : p item = true
    · rw [List.filter_cons_of_pos hp, List.flatMap_cons, List.flatMap_cons, hrest]
    · rw [List.filter_cons_of_neg hp, List.flatMap_cons, hrest,
        h item List.mem_cons_self (Bool.eq_false_iff.mpr hp), List.nil_append]

namespace SyntaxTree

/-! ### Induction and folds -/

/-- A property that passes from the children of every node to the node holds of every tree. -/
@[elab_as_elim] theorem induction {motive : SyntaxTree → Prop} (tree : SyntaxTree)
    (node : ∀ info children, (∀ child ∈ children, motive child) → motive (.node info children)) :
    motive tree := by
  refine @SyntaxTree.rec motive (fun trees => ∀ tree ∈ trees, motive tree) node ?_ ?_ tree
  · intro child hc
    cases hc
  · intro head rest hhead hrest child hc
    rcases List.mem_cons.mp hc with rfl | hc
    · exact hhead
    · exact hrest child hc

theorem foldAll_eq_map {α : Type} (f : SyntaxTree → List (SyntaxTree × α) → α)
    (trees : List SyntaxTree) :
    foldAll f trees = trees.map fun tree => (tree, fold f tree) := by
  induction trees with
  | nil => rfl
  | cons tree trees ih => simp only [foldAll, ih, List.map_cons]

theorem fold_node {α : Type} (f : SyntaxTree → List (SyntaxTree × α) → α) (info : NodeInfo)
    (children : List SyntaxTree) :
    fold f (.node info children) =
      f (.node info children) (children.map fun tree => (tree, fold f tree)) := by
  rw [fold, foldAll_eq_map]

theorem fold_eq {α : Type} (f : SyntaxTree → List (SyntaxTree × α) → α) (node : SyntaxTree) :
    node.fold f = f node (node.children.map fun child => (child, child.fold f)) := by
  cases node with
  | node info children => exact fold_node f info children

theorem mem_children_of_mem_constructs {tree child : SyntaxTree} (h : child ∈ tree.constructs) :
    child ∈ tree.children := (List.mem_filter.mp h).1

theorem mem_children_of_child? {tree child : SyntaxTree} {field : String}
    (h : tree.child? field = some child) : child ∈ tree.children :=
  List.mem_of_find?_eq_some h

theorem height_pos (tree : SyntaxTree) : 0 < tree.height := by
  cases tree with
  | node info children => exact Nat.succ_pos _

theorem height_lt_of_mem_children {node child : SyntaxTree} (hc : child ∈ node.children) :
    child.height < node.height := by
  have hall : ∀ trees : List SyntaxTree, child ∈ trees → child.height ≤ heightAll trees := by
    intro trees hin
    induction trees with
    | nil => cases hin
    | cons tree trees ih =>
      rw [heightAll]
      rcases List.mem_cons.mp hin with rfl | hin
      · exact Nat.le_max_left _ _
      · exact Nat.le_trans (ih hin) (Nat.le_max_right _ _)
  cases node with
  | node info children =>
    rw [height]
    exact Nat.lt_succ_of_le (hall children hc)

theorem sameNode_self (tree : SyntaxTree) : tree.sameNode tree = true := by
  simp only [sameNode, beq_self_eq_true, Bool.and_self]

def nodes (tree : SyntaxTree) : List SyntaxTree :=
  tree.fold fun node children => node :: children.flatMap Prod.snd

theorem nodes_node (info : NodeInfo) (children : List SyntaxTree) :
    (SyntaxTree.node info children).nodes =
      .node info children :: children.flatMap nodes := by
  rw [nodes, fold_node, List.flatMap_map]
  rfl

theorem mem_nodes_self (tree : SyntaxTree) : tree ∈ tree.nodes := by
  cases tree with
  | node info children =>
    rw [nodes_node]
    exact List.mem_cons_self ..

theorem mem_nodes_of_child {tree child node : SyntaxTree} (hc : child ∈ tree.children)
    (hn : node ∈ child.nodes) : node ∈ tree.nodes := by
  cases tree with
  | node info children =>
    rw [nodes_node]
    exact List.mem_cons_of_mem _ (List.mem_flatMap.mpr ⟨child, hc, hn⟩)

theorem nodes_trans {a b c : SyntaxTree} (hab : b ∈ a.nodes) (hbc : c ∈ b.nodes) : c ∈ a.nodes := by
  induction a using induction with
  | node info children ih =>
    rw [nodes_node] at hab
    rcases List.mem_cons.mp hab with rfl | hab
    · exact hbc
    · obtain ⟨child, hc, hb⟩ := List.mem_flatMap.mp hab
      exact mem_nodes_of_child hc (ih child hc hb)

end SyntaxTree

namespace SyntaxTree

/-! ### Trees put together by hand -/

def token (kind : String) (start stop : Nat) (field : Option String := none) : SyntaxTree :=
  .node { kind, start, stop, named := false, field } []

def leaf (kind : String) (start stop : Nat) (field : Option String := none) : SyntaxTree :=
  .node { kind, start, stop, field } []

/-- A text of `size` bytes that is one function, whose body goes from `start` to `stop`. -/
def ofBlock (size start stop : Nat) (statements : List SyntaxTree) : SyntaxTree :=
  .node { kind := "program", start := 0, stop := size }
    [.node { kind := "expression_statement", start := 0, stop := size }
      [.node { kind := "function_expression", start := 0, stop := size }
        [.node { kind := "statement_block", start, stop, field := some "body" } statements]]]

end SyntaxTree

/-! ### Character offsets of bytes -/

theorem le_of_mem_charOffsetsFrom {index offset : Nat} {text : List Char}
    (h : offset ∈ charOffsetsFrom index text) : offset ≤ index + text.length := by
  induction text generalizing index with
  | nil =>
    rw [charOffsetsFrom, List.mem_singleton] at h
    omega
  | cons c rest ih =>
    rw [charOffsetsFrom, List.mem_append] at h
    simp only [List.length_cons]
    rcases h with h | h
    · have := (List.mem_replicate.mp h).2
      omega
    · have := ih h
      omega

namespace Document

/-- The number of characters in front of a node. -/
def first (doc : Document) (node : SyntaxTree) : Nat := doc.offsets.getD node.info.start 0

/-- The number of characters up to the end of a node. -/
def past (doc : Document) (node : SyntaxTree) : Nat := doc.offsets.getD node.info.stop 0

/-- A node lies in the text and covers characters of it. -/
def Covers (doc : Document) (node : SyntaxTree) : Prop :=
  node.info.start < doc.offsets.length ∧ node.info.stop < doc.offsets.length ∧
    doc.first node < doc.past node

instance (doc : Document) (node : SyntaxTree) : Decidable (doc.Covers node) :=
  inferInstanceAs (Decidable (_ ∧ _ ∧ _))

/-- Nodes stand one behind the other between `lo` and `hi`, none of them empty. -/
def Row (doc : Document) (lo hi : Nat) : List SyntaxTree → Prop
  | [] => lo ≤ hi
  | node :: nodes => doc.Covers node ∧ lo ≤ doc.first node ∧ Row doc (doc.past node) hi nodes

instance decidableRow (doc : Document) (lo hi : Nat) :
    (nodes : List SyntaxTree) → Decidable (doc.Row lo hi nodes)
  | [] => inferInstanceAs (Decidable (lo ≤ hi))
  | node :: nodes =>
    have := decidableRow doc (doc.past node) hi nodes
    inferInstanceAs (Decidable (_ ∧ _ ∧ _))

/-- The children of a node lie in it, one behind the other. -/
def Ordered (doc : Document) (node : SyntaxTree) : Prop :=
  doc.Row (doc.first node) (doc.past node) node.children

instance (doc : Document) (node : SyntaxTree) : Decidable (doc.Ordered node) :=
  decidableRow ..

theorem Covers.start_eq {doc : Document} {node : SyntaxTree} (h : doc.Covers node) :
    doc.start node = .ok (doc.first node) := by
  simp only [start, charAt, first, List.getElem?_eq_getElem h.1, List.getD_eq_getElem?_getD,
    Option.getD_some]

theorem Covers.stop_eq {doc : Document} {node : SyntaxTree} (h : doc.Covers node) :
    doc.stop node = .ok (doc.past node) := by
  simp only [stop, charAt, past, List.getElem?_eq_getElem h.2.1, List.getD_eq_getElem?_getD,
    Option.getD_some]

theorem sameNode_eq_false {doc : Document} {a b : SyntaxTree} (h : doc.first a ≠ doc.first b) :
    a.sameNode b = false := by
  rw [Bool.eq_false_iff]
  intro hsame
  simp only [SyntaxTree.sameNode, Bool.and_eq_true, beq_iff_eq] at hsame
  rw [first, first, hsame.1.1] at h
  exact h rfl

def spelling (doc : Document) (node : SyntaxTree) : List Char :=
  (doc.text.take (doc.past node)).drop (doc.first node)

theorem Covers.nodeText_eq {doc : Document} {node : SyntaxTree} (h : doc.Covers node) :
    doc.nodeText node = .ok (doc.spelling node) := by
  simp only [nodeText, h.start_eq, h.stop_eq]
  rfl

theorem Covers.past_le {text : List Char} {root node : SyntaxTree}
    (h : (ofTree text root).Covers node) : (ofTree text root).past node ≤ text.length := by
  have hlt : node.info.stop < (charOffsets text).length := h.2.1
  have hmem : (ofTree text root).past node ∈ charOffsets text := by
    simp only [past, ofTree, List.getD_eq_getElem?_getD, List.getElem?_eq_getElem hlt,
      Option.getD_some]
    exact List.getElem_mem hlt
  have := le_of_mem_charOffsetsFrom hmem
  omega

/-! ### Rows of nodes -/

theorem Row.le {doc : Document} {lo hi : Nat} {nodes : List SyntaxTree} (h : doc.Row lo hi nodes) :
    lo ≤ hi := by
  induction nodes generalizing lo with
  | nil => exact h
  | cons node nodes ih =>
    obtain ⟨⟨_, _, hlt⟩, hle, hrest⟩ := h
    have := ih hrest
    omega

theorem Row.widen {doc : Document} {lo lo' hi : Nat} {nodes : List SyntaxTree}
    (h : doc.Row lo hi nodes) (hlo : lo' ≤ lo) : doc.Row lo' hi nodes := by
  cases nodes with
  | nil => exact Nat.le_trans hlo h
  | cons node nodes => exact ⟨h.1, Nat.le_trans hlo h.2.1, h.2.2⟩

theorem Row.append {doc : Document} {lo mid hi : Nat} {nodes others : List SyntaxTree}
    (h : doc.Row lo mid nodes) (h' : doc.Row mid hi others) : doc.Row lo hi (nodes ++ others) := by
  induction nodes generalizing lo with
  | nil => exact h'.widen h
  | cons node nodes ih =>
    obtain ⟨hcov, hle, hrest⟩ := h
    exact ⟨hcov, hle, ih hrest⟩

theorem Row.flatMap {doc : Document} {lo hi : Nat} {nodes : List SyntaxTree}
    (h : doc.Row lo hi nodes) {parts : SyntaxTree → List SyntaxTree}
    (hparts : ∀ node ∈ nodes, doc.Row (doc.first node) (doc.past node) (parts node)) :
    doc.Row lo hi (nodes.flatMap parts) := by
  induction nodes generalizing lo with
  | nil => exact h
  | cons node nodes ih =>
    obtain ⟨_, hle, hrest⟩ := h
    have hhead := hparts node List.mem_cons_self
    have htail := ih hrest fun n hn => hparts n (List.mem_cons_of_mem node hn)
    rw [List.flatMap_cons]
    exact (hhead.widen hle).append htail

theorem Row.mem {doc : Document} {lo hi : Nat} {nodes : List SyntaxTree} (h : doc.Row lo hi nodes)
    {node : SyntaxTree} (hn : node ∈ nodes) :
    doc.Covers node ∧ lo ≤ doc.first node ∧ doc.past node ≤ hi := by
  induction nodes generalizing lo with
  | nil => cases hn
  | cons head nodes ih =>
    obtain ⟨hcov, hle, hrest⟩ := h
    have hhi := hrest.le
    rcases List.mem_cons.mp hn with rfl | hn
    · exact ⟨hcov, hle, hhi⟩
    · obtain ⟨hc, h1, h2⟩ := ih hrest hn
      have := hcov.2.2
      exact ⟨hc, by omega, h2⟩

theorem Row.apart {doc : Document} {lo hi : Nat} {nodes : List SyntaxTree}
    (h : doc.Row lo hi nodes) {a b : SyntaxTree} (ha : a ∈ nodes) (hb : b ∈ nodes) :
    a = b ∨ doc.past a ≤ doc.first b ∨ doc.past b ≤ doc.first a := by
  induction nodes generalizing lo with
  | nil => cases ha
  | cons head nodes ih =>
    obtain ⟨hcov, hle, hrest⟩ := h
    rcases List.mem_cons.mp ha with ha | ha <;> rcases List.mem_cons.mp hb with hb | hb
    · exact Or.inl (ha.trans hb.symm)
    · exact Or.inr (Or.inl (ha ▸ (hrest.mem hb).2.1))
    · exact Or.inr (Or.inr (hb ▸ (hrest.mem ha).2.1))
    · exact ih hrest ha hb

theorem Row.first_ne {doc : Document} {lo hi : Nat} {nodes : List SyntaxTree}
    (h : doc.Row lo hi nodes) {a b : SyntaxTree} (ha : a ∈ nodes) (hb : b ∈ nodes) (hne : a ≠ b) :
    doc.first a ≠ doc.first b := by
  obtain ⟨⟨_, _, hlta⟩, _⟩ := h.mem ha
  obtain ⟨⟨_, _, hltb⟩, _⟩ := h.mem hb
  rcases h.apart ha hb with heq | hle | hle
  · exact absurd heq hne
  · omega
  · omega

theorem Row.tighten {doc : Document} {lo hi : Nat} {nodes : List SyntaxTree}
    (h : doc.Row lo hi nodes) {first last : SyntaxTree} (hfirst : nodes.head? = some first)
    (hlast : nodes.getLast? = some last) : doc.Row (doc.first first) (doc.past last) nodes := by
  induction nodes generalizing lo first with
  | nil => cases hfirst
  | cons head nodes ih =>
    cases hfirst
    obtain ⟨hcov, _, hrest⟩ := h
    refine ⟨hcov, Nat.le_refl _, ?_⟩
    cases nodes with
    | nil =>
      cases hlast
      exact Nat.le_refl _
    | cons next nodes =>
      rw [List.getLast?_cons_cons] at hlast
      exact (ih hrest rfl hlast).widen hrest.2.1

theorem Row.filter {doc : Document} {lo hi : Nat} {nodes : List SyntaxTree}
    (h : doc.Row lo hi nodes) (p : SyntaxTree → Bool) : doc.Row lo hi (nodes.filter p) := by
  induction nodes generalizing lo with
  | nil => exact h
  | cons head nodes ih =>
    obtain ⟨hcov, hle, hrest⟩ := h
    by_cases hp : p head = true
    · rw [List.filter_cons_of_pos hp]
      exact ⟨hcov, hle, ih hrest⟩
    · rw [List.filter_cons_of_neg hp]
      have hlt := hcov.2.2
      exact (ih hrest).widen (by omega)

end Document

end NotebookCell
