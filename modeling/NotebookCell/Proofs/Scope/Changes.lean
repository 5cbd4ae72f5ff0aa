import NotebookCell.Proofs.Scope.Names

/-!
# Texts with the names that moved in them

What the pass makes of a range is its characters with a row of changes made in them. Some of the changes
bring a name into the namespace, and the others frame a statement.
-/

namespace NotebookCell

/-- The text is the range with these changes made in it, and those of them that bring a name into the
namespace are those of these names, each once and in order. -/
structure Document.Moves (doc : Document) (source : MappedText) (lo hi : Nat) (text : MappedText)
    (changes : List Piece) (names : List SyntaxTree) : Prop where
  row : Piece.Row lo hi changes
  text_eq : text = Piece.splice source lo hi changes
  names_eq : changes.filter Piece.qualifies = names.map doc.qualification

/-- Nothing but these names is moved, and nothing framed. -/
def Document.MovesNames (doc : Document) (source : MappedText) (lo hi : Nat) (text : MappedText)
    (names : List SyntaxTree) : Prop :=
  doc.Moves source lo hi text (names.map doc.qualification) names

namespace Document

variable {doc : Document} {source : MappedText} {lo mid hi : Nat} {text text' : MappedText}
  {changes changes' : List Piece} {names names' : List SyntaxTree}

theorem moves_kept (doc : Document) (source : MappedText) (h : lo ≤ hi) :
    doc.Moves source lo hi (source.segment lo hi) [] [] := ⟨h, rfl, rfl⟩

theorem Moves.append (h : doc.Moves source lo mid text changes names)
    (h' : doc.Moves source mid hi text' changes' names') :
    doc.Moves source lo hi (text ++ text') (changes ++ changes') (names ++ names') where
  row := h.row.append h'.row
  text_eq := by rw [h.text_eq, h'.text_eq, Piece.splice_append source h.row h'.row]
  names_eq := by rw [List.filter_append, List.map_append, h.names_eq, h'.names_eq]

theorem moves_piece (piece : Piece) (h : piece.start ≤ piece.stop)
    (hnames : [piece].filter Piece.qualifies = names.map doc.qualification) :
    doc.Moves source piece.start piece.stop piece.text [piece] names := by
  refine ⟨⟨Nat.le_refl _, h, Nat.le_refl _⟩, ?_, hnames⟩
  rw [Piece.splice, Piece.splice, source.segment_self, source.segment_self, List.nil_append,
    List.append_nil]

/-! ### Frames -/

theorem moves_frame (doc : Document) (source : MappedText) (h : lo ≤ hi) {chars : List Char}
    (hframe : '_' ∉ chars) (origin : Option Position) :
    doc.Moves source lo hi (.ofChars chars origin) [⟨lo, hi, .ofChars chars origin⟩] [] := by
  have hmem : '_' ∈ namespaceDot := List.mem_cons_self
  have hquiet : ¬(Piece.mk lo hi (.ofChars chars origin)).qualifies = true := by
    rw [Piece.qualifies, MappedText.chars_ofChars, decide_eq_true_iff]
    exact fun hwithin => hframe (hwithin.subset hmem)
  apply moves_piece ⟨lo, hi, .ofChars chars origin⟩ h
  rw [List.filter_cons_of_neg hquiet]
  rfl

theorem moves_inserted (doc : Document) (source : MappedText) (place : Nat) {text : String}
    (hframe : '_' ∉ text.toList) :
    doc.Moves source place place (.ofString text) [.inserted place text] [] :=
  moves_frame doc source (Nat.le_refl place) hframe none

theorem Moves.framed (h : doc.Moves source lo hi text changes names) (front back : String)
    (hfront : '_' ∉ front.toList) (hback : '_' ∉ back.toList) :
    doc.Moves source lo hi (.ofString front ++ text ++ .ofString back)
      (.inserted lo front :: (changes ++ [.inserted hi back])) names := by
  have hall := ((moves_inserted doc source lo hfront).append h).append
    (moves_inserted doc source hi hback)
  rw [List.nil_append, List.append_nil] at hall
  exact hall

/-! ### Names -/

theorem qualifies_qualification (doc : Document) (name : SyntaxTree) :
    (doc.qualification name).qualifies = true := by
  have hbegins : ∀ rest, namespaceDot <:+: namespaceDot ++ rest := fun rest =>
    (List.prefix_append namespaceDot rest).isInfix
  unfold qualification
  split
  · rw [Piece.qualifies, MappedText.chars_ofChars]
    exact decide_eq_true List.infix_rfl
  · split
    · rw [Piece.qualifies, MappedText.chars_ofChars]
      exact decide_eq_true (List.infix_cons (hbegins _))
    · rw [Piece.qualifies, MappedText.chars_ofChars]
      exact decide_eq_true (hbegins _)

theorem moves_name (doc : Document) (source : MappedText) (name : SyntaxTree) :
    doc.Moves source (doc.qualification name).start (doc.qualification name).stop
      (doc.qualification name).text ([name].map doc.qualification) [name] := by
  apply moves_piece
  · unfold qualification
    split
    · exact Nat.le_refl _
    · split <;> exact Nat.le_refl _
  · rw [List.filter_cons_of_pos (qualifies_qualification doc name)]
    rfl

/-! ### Rows of nodes -/

theorem moves_pieces {items : List SyntaxTree} {textOf : SyntaxTree → MappedText}
    {changesOf : SyntaxTree → List Piece} {namesOf : SyntaxTree → List SyntaxTree}
    (hrow : doc.Row lo hi items)
    (hitems : ∀ item ∈ items, doc.Moves source (doc.first item) (doc.past item) (textOf item)
      (changesOf item) (namesOf item)) :
    doc.Moves source lo hi (Piece.splice source lo hi (doc.pieces textOf items))
      (items.flatMap changesOf) (items.flatMap namesOf) := by
  induction items generalizing lo with
  | nil => exact moves_kept doc source hrow
  | cons item items ih =>
    obtain ⟨hcov, hlo, hrest⟩ := hrow
    have hhead := hitems item List.mem_cons_self
    have htail := ih hrest fun other hother => hitems other (List.mem_cons_of_mem item hother)
    exact ((moves_kept doc source hlo).append hhead).append htail

end Document

end NotebookCell
