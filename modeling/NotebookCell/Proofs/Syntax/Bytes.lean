import NotebookCell.Proofs.Syntax.Nodes

/-!
# Bytes and characters

A parser reads the UTF-8 form of a text. The table of character offsets has an entry for every byte and
one for the end: all bytes of a character lead to that character. So a node whose bytes are those of some
characters starts and ends with them and shows them.
-/

namespace NotebookCell

/-- The number of bytes in front of the character at a place. -/
def byteOf (text : List Char) (place : Nat) : Nat := (String.ofList (text.take place)).utf8ByteSize

/-- The table leads from each byte of the text to its character, and from the end to the end. -/
structure FitsBytes (text : List Char) (offsets : List Nat) : Prop where
  length : offsets.length = text.utf8Encode.size + 1
  rising : offsets.Pairwise (· ≤ ·)
  boundary : ∀ place ≤ text.length, offsets[byteOf text place]? = some place
  inside : ∀ place < text.length, ∀ byte, byteOf text place ≤ byte → byte < byteOf text (place + 1) →
    offsets[byte]? = some place
  last : offsets.getLast? = some text.length

/-- The node starts and ends with some characters of the text and shows them, and its bytes are those of
these characters. -/
structure Document.Spells (doc : Document) (node : SyntaxTree) (lo hi : Nat) : Prop where
  start : doc.start node = .ok lo
  stop : doc.stop node = .ok hi
  text : doc.nodeText node = .ok ((doc.text.take hi).drop lo)
  bytes : ((doc.text.take hi).drop lo).utf8Encode =
    doc.text.utf8Encode.extract node.info.start node.info.stop

section Bytes

theorem byteOf_eq_size (text : List Char) (place : Nat) :
    byteOf text place = (text.take place).utf8Encode.size := by
  rw [byteOf, String.utf8ByteSize, String.toByteArray_ofList]

theorem byteOf_length (text : List Char) : byteOf text text.length = text.utf8Encode.size := by
  rw [byteOf_eq_size, List.take_length]

theorem size_utf8Encode_cons (c : Char) (rest : List Char) :
    (c :: rest).utf8Encode.size = c.utf8Size + rest.utf8Encode.size := by
  rw [List.utf8Encode_cons, ByteArray.size_append, List.utf8Encode_singleton, List.size_toByteArray,
    String.length_utf8EncodeChar]

theorem byteLength_eq_size (text : List Char) : byteLength text = text.utf8Encode.size := by
  induction text with
  | nil => rfl
  | cons c rest ih => rw [byteLength, ih, size_utf8Encode_cons]

theorem byteOf_cons (c : Char) (rest : List Char) (place : Nat) :
    byteOf (c :: rest) (place + 1) = c.utf8Size + byteOf rest place := by
  rw [byteOf_eq_size, byteOf_eq_size, List.take_succ_cons, size_utf8Encode_cons]

theorem byteOf_succ {text : List Char} {place : Nat} (h : place < text.length) :
    byteOf text (place + 1) = byteOf text place + text[place].utf8Size := by
  rw [byteOf_eq_size, byteOf_eq_size, List.take_succ_eq_append_getElem h, List.utf8Encode_append,
    ByteArray.size_append, size_utf8Encode_cons]
  rfl

/-- The bytes between those in front of two places are the bytes of the characters there. -/
theorem utf8Encode_segment (text : List Char) {lo hi : Nat} (h : lo ≤ hi) :
    ((text.take hi).drop lo).utf8Encode =
      text.utf8Encode.extract (byteOf text lo) (byteOf text hi) := by
  have hsplit : text.take hi = text.take lo ++ (text.take hi).drop lo := by
    have hcut := List.take_append_drop lo (text.take hi)
    rw [List.take_take, Nat.min_eq_left h] at hcut
    exact hcut.symm
  have htext : text.utf8Encode =
      (text.take lo).utf8Encode ++ (((text.take hi).drop lo).utf8Encode ++ (text.drop hi).utf8Encode) := by
    rw [← ByteArray.append_assoc, ← List.utf8Encode_append, ← hsplit, ← List.utf8Encode_append,
      List.take_append_drop]
  have hstop : byteOf text hi =
      (text.take lo).utf8Encode.size + ((text.take hi).drop lo).utf8Encode.size := by
    rw [byteOf_eq_size, ← ByteArray.size_append, ← List.utf8Encode_append, ← hsplit]
  rw [htext, hstop, byteOf_eq_size, ← Nat.add_zero (text.take lo).utf8Encode.size, Nat.add_assoc,
    ByteArray.extract_append_size_add, Nat.zero_add, ByteArray.extract_append_eq_left rfl]

end Bytes

/-! ### The table -/

section Table

variable {index place : Nat} {text : List Char}

/-- Behind the bytes of some characters the table goes on with the characters that follow. -/
theorem drop_charOffsetsFrom (index : Nat) (h : place ≤ text.length) :
    (charOffsetsFrom index text).drop (byteOf text place) =
      charOffsetsFrom (index + place) (text.drop place) := by
  induction place generalizing index text with
  | zero => rfl
  | succ place ih =>
    cases text with
    | nil => cases h
    | cons c rest =>
      rw [byteOf_cons, charOffsetsFrom, List.drop_append, List.length_replicate, Nat.add_sub_cancel_left,
        List.drop_of_length_le (by rw [List.length_replicate]; omega), List.nil_append,
        ih (index + 1) (Nat.le_of_succ_le_succ h), List.drop_succ_cons, Nat.add_assoc, Nat.add_comm 1]

theorem head?_charOffsetsFrom (index : Nat) (text : List Char) :
    (charOffsetsFrom index text).head? = some index := by
  cases text with
  | nil => rfl
  | cons c rest =>
    obtain ⟨width, hwidth⟩ := Nat.exists_eq_succ_of_ne_zero (Nat.ne_of_gt c.utf8Size_pos)
    rw [charOffsetsFrom, hwidth]
    rfl

theorem le_charOffsetsFrom {offset : Nat} (h : offset ∈ charOffsetsFrom index text) :
    index ≤ offset := by
  induction text generalizing index with
  | nil => exact Nat.le_of_eq (List.mem_singleton.mp h).symm
  | cons c rest ih =>
    rcases List.mem_append.mp h with h | h
    · exact Nat.le_of_eq (List.eq_of_mem_replicate h).symm
    · exact Nat.le_of_succ_le (ih h)

theorem pairwise_charOffsetsFrom (index : Nat) (text : List Char) :
    (charOffsetsFrom index text).Pairwise (· ≤ ·) := by
  induction text generalizing index with
  | nil => exact List.pairwise_singleton _ _
  | cons c rest ih =>
    rw [charOffsetsFrom, List.pairwise_append]
    refine ⟨List.pairwise_replicate.mpr (Or.inr (Nat.le_refl index)), ih (index + 1), ?_⟩
    intro a ha b hb
    rw [List.eq_of_mem_replicate ha]
    exact Nat.le_of_succ_le (le_charOffsetsFrom hb)

theorem getElem?_charOffsets {byte : Nat} (hplace : place ≤ text.length)
    (h : byteOf text place ≤ byte) :
    (charOffsets text)[byte]? =
      (charOffsetsFrom place (text.drop place))[byte - byteOf text place]? := by
  have hdrop := drop_charOffsetsFrom 0 hplace
  rw [Nat.zero_add] at hdrop
  rw [← hdrop, List.getElem?_drop, Nat.add_sub_cancel' h, charOffsets]

theorem fitsBytes_charOffsets (text : List Char) : FitsBytes text (charOffsets text) := by
  have hboundary : ∀ place ≤ text.length, (charOffsets text)[byteOf text place]? = some place := by
    intro place hplace
    rw [getElem?_charOffsets hplace (Nat.le_refl _), Nat.sub_self, ← List.head?_eq_getElem?,
      head?_charOffsetsFrom]
  have hlength : (charOffsets text).length = text.utf8Encode.size + 1 := by
    rw [charOffsets, length_charOffsetsFrom, byteLength_eq_size]
  refine ⟨hlength, pairwise_charOffsetsFrom 0 text, hboundary, ?_, ?_⟩
  · intro place hplace byte hlo hhi
    have hwidth : byteOf text (place + 1) = byteOf text place + text[place].utf8Size :=
      byteOf_succ hplace
    have hinside : byte - byteOf text place < text[place].utf8Size := by omega
    rw [getElem?_charOffsets (Nat.le_of_lt hplace) hlo, List.drop_eq_getElem_cons hplace,
      charOffsetsFrom, List.getElem?_append_left (by rw [List.length_replicate]; exact hinside),
      List.getElem?_replicate, if_pos hinside]
  · rw [List.getLast?_eq_getElem?, hlength, Nat.add_sub_cancel, ← byteOf_length]
    exact hboundary text.length (Nat.le_refl _)

end Table

/-- The table of a text fits its bytes. A node whose bytes are those from one character up to another
starts and ends there and shows the characters in between, whose bytes are the node's. -/
theorem charOffsets_follow_bytes (text : List Char) :
    FitsBytes text (charOffsets text) ∧
      ∀ (root node : SyntaxTree) (lo hi : Nat), lo ≤ hi → hi ≤ text.length →
        node.info.start = byteOf text lo → node.info.stop = byteOf text hi →
        (Document.ofTree text root).Spells node lo hi := by
  have hfits := fitsBytes_charOffsets text
  refine ⟨hfits, fun root node lo hi hle hhi hstart hstop => ?_⟩
  have hlo := hfits.boundary lo (Nat.le_trans hle hhi)
  have hhi := hfits.boundary hi hhi
  have hfirst : (Document.ofTree text root).start node = .ok lo := by
    simp only [Document.start, Document.charAt, Document.ofTree, hstart, hlo]
  have hlast : (Document.ofTree text root).stop node = .ok hi := by
    simp only [Document.stop, Document.charAt, Document.ofTree, hstop, hhi]
  refine ⟨hfirst, hlast, ?_, ?_⟩
  · rw [Document.nodeText, hfirst, hlast]
    rfl
  · rw [hstart, hstop]
    exact utf8Encode_segment text hle

/-- Characters of one to four bytes, and a node that holds those of two and three bytes. -/
theorem charOffsets_follow_bytes_applied :
    let text := ['a', 'é', '€', '😀']
    let node := SyntaxTree.leaf "string" 1 6
    byteOf text 1 = 1 ∧ byteOf text 3 = 6 ∧ FitsBytes text [0, 1, 1, 2, 2, 2, 3, 3, 3, 3, 4] ∧
      (Document.ofTree text node).Spells node 1 3 := by
  intro text node
  obtain ⟨hfits, hnodes⟩ := charOffsets_follow_bytes text
  have hlo : byteOf text 1 = 1 := by decide +kernel
  have hhi : byteOf text 3 = 6 := by decide +kernel
  exact ⟨hlo, hhi, hfits, hnodes node node 1 3 (by decide) (by decide) hlo.symm hhi.symm⟩

end NotebookCell
