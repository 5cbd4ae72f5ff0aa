import Mathlib.Tactic.MkIffOfInductiveProp
import NotebookCell.Proofs.Syntax.Nodes

/-!
# Nested nodes

The range of a node begins and ends between characters, it holds those of its children, and the
children stand in order. Nodes without characters are allowed.
-/

namespace NotebookCell.Document

variable {doc : Document} {node a b : SyntaxTree}

@[mk_iff] structure Nested (doc : Document) (node : SyntaxTree) : Prop where
  front : byteLength (doc.text.take (doc.first node)) = node.info.start
  back : byteLength (doc.text.take (doc.past node)) = node.info.stop
  le : doc.first node ≤ doc.past node
  inside : ∀ child ∈ node.children, doc.first node ≤ doc.first child ∧ doc.past child ≤ doc.past node
  ordered : node.children.Pairwise fun a b => doc.past a ≤ doc.first b

instance (doc : Document) (node : SyntaxTree) : Decidable (doc.Nested node) :=
  decidable_of_iff' _ (nested_iff doc node)

theorem byteLength_take_le (text : List Char) (n : Nat) : byteLength (text.take n) ≤ byteLength text := by
  induction text generalizing n with
  | nil => exact Nat.le_of_eq (congrArg byteLength List.take_nil)
  | cons c text ih =>
    cases n with
    | zero => exact Nat.zero_le _
    | succ n =>
      rw [List.take_succ_cons, byteLength, byteLength]
      exact Nat.add_le_add_left (ih n) _

theorem Nested.start_eq (h : doc.Nested node) (htable : doc.offsets = charOffsets doc.text) :
    doc.start node = .ok (doc.first node) := by
  have hlt : node.info.start < doc.offsets.length := by
    rw [htable, charOffsets, length_charOffsetsFrom, ← h.front]
    exact Nat.lt_succ_of_le (byteLength_take_le _ _)
  simp only [start, charAt, first, List.getElem?_eq_getElem hlt, List.getD_eq_getElem?_getD,
    Option.getD_some]

theorem Nested.stop_eq (h : doc.Nested node) (htable : doc.offsets = charOffsets doc.text) :
    doc.stop node = .ok (doc.past node) := by
  have hlt : node.info.stop < doc.offsets.length := by
    rw [htable, charOffsets, length_charOffsetsFrom, ← h.back]
    exact Nat.lt_succ_of_le (byteLength_take_le _ _)
  simp only [stop, charAt, past, List.getElem?_eq_getElem hlt, List.getD_eq_getElem?_getD,
    Option.getD_some]

theorem past_le_length (htable : doc.offsets = charOffsets doc.text) (node : SyntaxTree) :
    doc.past node ≤ doc.text.length := by
  rw [past, List.getD_eq_getElem?_getD, htable]
  cases hat : (charOffsets doc.text)[node.info.stop]? with
  | none => exact Nat.zero_le _
  | some offset =>
    have hle := le_of_mem_charOffsetsFrom (List.mem_of_getElem? hat)
    rw [Option.getD_some]
    omega

theorem Nested.sameNode_eq (ha : doc.Nested a) (hb : doc.Nested b) :
    a.sameNode b = (doc.first a == doc.first b && doc.past a == doc.past b && a.kind == b.kind) := by
  have hstart : a.info.start = b.info.start ↔ doc.first a = doc.first b := by
    constructor
    · intro h
      rw [first, first, h]
    · intro h
      rw [← ha.front, ← hb.front, h]
  have hstop : a.info.stop = b.info.stop ↔ doc.past a = doc.past b := by
    constructor
    · intro h
      rw [past, past, h]
    · intro h
      rw [← ha.back, ← hb.back, h]
  rw [Bool.eq_iff_iff]
  simp only [SyntaxTree.sameNode, Bool.and_eq_true, beq_iff_eq, hstart, hstop]

/-! ### Nodes that stand apart -/

/-- One of the nodes ends before the other begins. -/
def Apart (doc : Document) (a b : SyntaxTree) : Prop :=
  doc.past a ≤ doc.first b ∨ doc.past b ≤ doc.first a

/-- Two nodes in a list in order stand apart, unless they are one and the same. -/
theorem apart_of_ordered {nodes : List SyntaxTree}
    (h : nodes.Pairwise fun a b => doc.past a ≤ doc.first b) (ha : a ∈ nodes) (hb : b ∈ nodes) :
    a = b ∨ doc.Apart a b := by
  induction nodes with
  | nil => cases ha
  | cons head nodes ih =>
    obtain ⟨hhead, hrest⟩ := List.pairwise_cons.mp h
    rcases List.mem_cons.mp ha with ha | ha <;> rcases List.mem_cons.mp hb with hb | hb
    · exact Or.inl (ha.trans hb.symm)
    · exact Or.inr (Or.inl (ha ▸ hhead b hb))
    · exact Or.inr (Or.inr (hb ▸ hhead a ha))
    · exact ih hrest ha hb

theorem inside_of_mem_nodes {tree : SyntaxTree} (h : ∀ part ∈ tree.nodes, doc.Nested part)
    (hn : node ∈ tree.nodes) : doc.first tree ≤ doc.first node ∧ doc.past node ≤ doc.past tree := by
  induction tree using SyntaxTree.induction with
  | node info children ih =>
    rw [SyntaxTree.nodes_node] at hn
    rcases List.mem_cons.mp hn with rfl | hn
    · exact ⟨Nat.le_refl _, Nat.le_refl _⟩
    · obtain ⟨child, hc, hn⟩ := List.mem_flatMap.mp hn
      obtain ⟨hlo, hhi⟩ := (h _ (SyntaxTree.mem_nodes_self _)).inside child hc
      obtain ⟨hlo', hhi'⟩ := ih child hc (fun part hp => h part (SyntaxTree.mem_nodes_of_child hc hp)) hn
      exact ⟨Nat.le_trans hlo hlo', Nat.le_trans hhi' hhi⟩

theorem Apart.of_inside {a' b' : SyntaxTree} (h : doc.Apart a b)
    (ha : doc.first a ≤ doc.first a' ∧ doc.past a' ≤ doc.past a)
    (hb : doc.first b ≤ doc.first b' ∧ doc.past b' ≤ doc.past b) : doc.Apart a' b' := by
  rcases h with h | h
  · exact Or.inl (Nat.le_trans ha.2 (Nat.le_trans h hb.1))
  · exact Or.inr (Nat.le_trans hb.2 (Nat.le_trans h ha.1))

end NotebookCell.Document
