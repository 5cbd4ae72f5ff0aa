import NotebookCell.Proofs.Edit.Parts
import NotebookCell.Proofs.Pass.Bodies
import NotebookCell.Proofs.Text.Pieces

/-!
# Layouts

A layout says what a range of a text is put together from, word by word: texts given literally, and
nodes. If nodes are replaced in it, the words in between stay.
-/

namespace NotebookCell

/-! ### Characters of ranges -/

namespace MappedText

variable {source : MappedText}

theorem chars_take (h : ∀ c ∈ source, c.IsSingle) (n : Nat) :
    chars (source.take n) = (chars source).take n := by
  induction source generalizing n with
  | nil => rw [List.take_nil]; exact List.take_nil.symm
  | cons c source ih =>
    obtain ⟨ch, hglyph⟩ := h c List.mem_cons_self
    have hrest := ih fun d hd => h d (List.mem_cons_of_mem c hd)
    cases n with
    | zero => rfl
    | succ n =>
      rw [List.take_succ_cons, chars_cons hglyph, chars_cons hglyph, List.take_succ_cons, hrest]

theorem chars_drop (h : ∀ c ∈ source, c.IsSingle) (n : Nat) :
    chars (source.drop n) = source.chars.drop n := by
  have hall : chars (source.take n) ++ chars (source.drop n) = source.chars := by
    rw [← chars_append, List.take_append_drop]
  have hsplit : source.chars.take n ++ source.chars.drop n = source.chars := List.take_append_drop ..
  rw [chars_take h] at hall
  exact List.append_cancel_left (hall.trans hsplit.symm)

theorem chars_segment (h : ∀ c ∈ source, c.IsSingle) (lo hi : Nat) :
    (source.segment lo hi).chars = (source.chars.take hi).drop lo := by
  rw [segment, chars_drop fun c hc => h c (List.mem_of_mem_take hc), chars_take h]

theorem isSingle_segment (h : ∀ c ∈ source, c.IsSingle) (lo hi : Nat) :
    ∀ c ∈ source.segment lo hi, c.IsSingle :=
  fun c hc => h c (List.mem_of_mem_take (List.mem_of_mem_drop hc))

theorem isSingle_ofChars (chars : List Char) (origin : Option Position) :
    ∀ c ∈ MappedText.ofChars chars origin, c.IsSingle := by
  intro c hc
  obtain ⟨ch, _, rfl⟩ := List.mem_map.mp hc
  exact ⟨ch, rfl⟩

theorem isSingle_append {text other : MappedText} (h : ∀ c ∈ text, c.IsSingle)
    (h' : ∀ c ∈ other, c.IsSingle) : ∀ c ∈ text ++ other, c.IsSingle :=
  List.forall_mem_append.mpr ⟨h, h'⟩

theorem isSingle_splice (h : ∀ c ∈ source, c.IsSingle) {pieces : List Piece}
    (hpieces : ∀ piece ∈ pieces, ∀ c ∈ piece.text, c.IsSingle) (lo hi : Nat) :
    ∀ c ∈ Piece.splice source lo hi pieces, c.IsSingle := by
  induction pieces generalizing lo with
  | nil => exact isSingle_segment h lo hi
  | cons piece pieces ih =>
    exact isSingle_append
      (isSingle_append (isSingle_segment h lo piece.start) (hpieces piece List.mem_cons_self))
      (ih (fun other ho => hpieces other (List.mem_cons_of_mem piece ho)) piece.stop)

end MappedText

inductive LayoutWord where
  | text (chars : List Char)
  | node (tree : SyntaxTree)

namespace LayoutWord

def nodes : List LayoutWord → List SyntaxTree
  | [] => []
  | .text _ :: words => nodes words
  | .node tree :: words => tree :: nodes words

def spelled (spelling : SyntaxTree → List Char) : List LayoutWord → List Char
  | [] => []
  | .text chars :: words => chars ++ spelled spelling words
  | .node tree :: words => spelling tree ++ spelled spelling words

def separated : List SyntaxTree → List LayoutWord
  | [] => []
  | [tree] => [.node tree]
  | tree :: trees => .node tree :: .text [','] :: separated trees

theorem nodes_append (words others : List LayoutWord) :
    nodes (words ++ others) = nodes words ++ nodes others := by
  induction words with
  | nil => rfl
  | cons word words ih =>
    cases word with
    | text chars => exact ih
    | node tree => exact congrArg (tree :: ·) ih

theorem spelled_append (spelling : SyntaxTree → List Char) (words others : List LayoutWord) :
    spelled spelling (words ++ others) = spelled spelling words ++ spelled spelling others := by
  induction words with
  | nil => rfl
  | cons word words ih =>
    cases word with
    | text chars => rw [List.cons_append, spelled, spelled, ih, List.append_assoc]
    | node tree => rw [List.cons_append, spelled, spelled, ih, List.append_assoc]

theorem nodes_separated (trees : List SyntaxTree) : nodes (separated trees) = trees := by
  induction trees with
  | nil => rfl
  | cons tree trees ih =>
    cases trees with
    | nil => rfl
    | cons next trees => exact congrArg (tree :: ·) ih

theorem spelled_separated (spelling : SyntaxTree → List Char) (trees : List SyntaxTree) :
    spelled spelling (separated trees) = Text.joinWith [','] (trees.map spelling) := by
  induction trees with
  | nil => rfl
  | cons tree trees ih =>
    cases trees with
    | nil => exact List.append_nil (spelling tree)
    | cons next trees =>
      have hrest : spelled spelling (separated (tree :: next :: trees)) =
          spelling tree ++ ([','] ++ spelled spelling (separated (next :: trees))) := rfl
      rw [hrest, ih, ← List.append_assoc]
      rfl

end LayoutWord

namespace Document

/-- The text from `lo` up to `hi` consists of these words. -/
def Layout (doc : Document) (lo hi : Nat) : List LayoutWord → Prop
  | [] => lo = hi
  | .text chars :: words =>
    (doc.text.take (lo + chars.length)).drop lo = chars ∧ doc.Layout (lo + chars.length) hi words
  | .node tree :: words =>
    doc.Covers tree ∧ doc.first tree = lo ∧ doc.Layout (doc.past tree) hi words

instance decidableLayout (doc : Document) (lo hi : Nat) :
    (words : List LayoutWord) → Decidable (doc.Layout lo hi words)
  | [] => inferInstanceAs (Decidable (lo = hi))
  | .text chars :: words =>
    have := decidableLayout doc (lo + chars.length) hi words
    inferInstanceAs (Decidable (_ ∧ _))
  | .node tree :: words =>
    have := decidableLayout doc (doc.past tree) hi words
    inferInstanceAs (Decidable (_ ∧ _ ∧ _))

/-- The node is put together from these words, and the nodes among them are its constructs. -/
structure LaidOut (doc : Document) (node : SyntaxTree) (words : List LayoutWord) : Prop where
  constructs : node.constructs = LayoutWord.nodes words
  layout : doc.Layout (doc.first node) (doc.past node) words

variable {doc : Document} {source : MappedText} {lo hi : Nat} {words : List LayoutWord}

theorem spelling_eq (hsingle : ∀ c ∈ source, c.IsSingle) (hsource : doc.text = source.chars)
    (node : SyntaxTree) :
    (source.segment (doc.first node) (doc.past node)).chars = doc.spelling node := by
  rw [MappedText.chars_segment hsingle, ← hsource, spelling]

theorem Layout.row (h : doc.Layout lo hi words) : doc.Row lo hi (LayoutWord.nodes words) := by
  induction words generalizing lo with
  | nil => exact Nat.le_of_eq h
  | cons word words ih =>
    cases word with
    | text chars => exact (ih h.2).widen (Nat.le_add_right lo _)
    | node tree => exact ⟨h.1, Nat.le_of_eq h.2.1.symm, ih h.2.2⟩

theorem Layout.chars_splice (h : doc.Layout lo hi words) (hsingle : ∀ c ∈ source, c.IsSingle)
    (hsource : doc.text = source.chars) (text : SyntaxTree → MappedText) :
    (Piece.splice source lo hi (doc.pieces text (LayoutWord.nodes words))).chars =
      LayoutWord.spelled (fun tree => (text tree).chars) words := by
  induction words generalizing lo with
  | nil =>
    rw [show lo = hi from h]
    exact congrArg MappedText.chars (source.segment_self hi)
  | cons word words ih =>
    cases word with
    | text chars =>
      obtain ⟨htext, hrest⟩ := h
      have hempty : Piece.Row lo (lo + chars.length) [] := Nat.le_add_right lo _
      have hsplit := Piece.splice_append source hempty (hrest.row.pieces text)
      rw [List.nil_append] at hsplit
      rw [LayoutWord.nodes, hsplit, MappedText.chars_append, ih hrest, LayoutWord.spelled,
        Piece.splice, MappedText.chars_segment hsingle, ← hsource, htext]
    | node tree =>
      obtain ⟨_, rfl, hrest⟩ := h
      have htail := ih hrest
      rw [pieces] at htail
      rw [LayoutWord.nodes, pieces, List.map_cons, Piece.splice, source.segment_self,
        List.nil_append, MappedText.chars_append, htail, LayoutWord.spelled]

end Document

end NotebookCell
