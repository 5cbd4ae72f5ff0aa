import NotebookCell.Proofs.Text.Numerals
import NotebookCell.Trace.Reference

/-!
# A reference in a text

A reference with a line and a column is found where it is written, with all its digits, if no other
reference begins in the text around it and no digit follows. The one way in which the mark of a
reference overlaps itself is its last underscore, behind which no digit stands then.
-/

namespace NotebookCell

theorem afterStart?_append (start rest : List Char) :
    afterStart? start (start ++ rest) = some rest := by
  have hstart : start.isPrefixOf (start ++ rest) = true :=
    List.isPrefixOf_iff_prefix.mpr (List.prefix_append start rest)
  rw [afterStart?, if_pos hstart, List.drop_left]

theorem afterStart?_eq_none {start text : List Char} (h : ¬start <+: text) :
    afterStart? start text = none := by
  rw [afterStart?, if_neg]
  intro hstart
  exact h (List.isPrefixOf_iff_prefix.mp hstart)

theorem referenceAt?_eq_none {text : List Char} (h : ¬referenceStart <+: text) :
    referenceAt? text = none := by
  unfold referenceAt?
  rw [afterStart?_eq_none h]
  rfl

/-! ### The parts of a text -/

def colonText : Option (List Char) → List Char
  | none => []
  | some digits => ':' :: digits

theorem Reference.text_eq (reference : Reference) :
    reference.text =
      referenceStart ++ (reference.id ++ (colonText reference.line ++ colonText reference.column)) := by
  obtain ⟨id, line, column⟩ := reference
  simp only [text, List.append_assoc]
  cases line <;> cases column <;> rfl

theorem Reference.text_ne_nil (reference : Reference) : reference.text ≠ [] := by
  rw [text_eq]
  exact List.cons_ne_nil _ _

theorem tracePartsFrom_skip (skipped rest : List Char) :
    tracePartsFrom skipped.length (skipped ++ rest) = tracePartsFrom 0 rest := by
  induction skipped with
  | nil => rfl
  | cons c skipped ih => exact ih

theorem traceParts_plain {c : Char} {rest : List Char} (h : referenceAt? (c :: rest) = none) :
    traceParts (c :: rest) = .plain c :: traceParts rest := by
  simp only [traceParts, tracePartsFrom, h]

theorem traceParts_reference {reference : Reference} {rest : List Char}
    (h : referenceAt? (reference.text ++ rest) = some reference) :
    traceParts (reference.text ++ rest) = .reference reference :: traceParts rest := by
  obtain ⟨c, behind, htext⟩ := List.exists_cons_of_ne_nil (Reference.text_ne_nil reference)
  have hskip : reference.text.length - 1 = behind.length := by
    rw [htext]
    rfl
  rw [htext, List.cons_append] at h ⊢
  simp only [traceParts, tracePartsFrom, h, hskip, tracePartsFrom_skip]

/-! ### Where no reference begins -/

theorem traceParts_of_free {text : List Char} (h : ¬referenceStart <:+: text) :
    traceParts text = text.map .plain := by
  induction text with
  | nil => rfl
  | cons c rest ih =>
    have hnone : referenceAt? (c :: rest) = none :=
      referenceAt?_eq_none fun hstart => h hstart.isInfix
    have hrest : ¬referenceStart <:+: rest := fun hin =>
      h (hin.trans (List.suffix_cons c rest).isInfix)
    rw [traceParts_plain hnone, ih hrest, List.map_cons]

/-- A proper end of the mark with which the mark begins is its last underscore. -/
theorem referenceStart_border {k : Nat} (hpos : 0 < k) (hk : k < referenceStart.length)
    (h : referenceStart.drop k <+: referenceStart) : k = 19 := by
  have hall : ∀ k : Fin 20, 0 < k.val → (referenceStart.drop k.val).isPrefixOf referenceStart →
      k.val = 19 := by decide
  exact hall ⟨k, hk⟩ hpos (List.isPrefixOf_iff_prefix.mpr h)

/-- No reference begins in a text in front of a mark, unless the text holds a mark itself. -/
theorem referenceAt?_before_start {text rest : List Char} (hne : text ≠ [])
    (hfree : ¬referenceStart <:+: text) : referenceAt? (text ++ (referenceStart ++ rest)) = none := by
  by_cases hstart : referenceStart <+: text ++ (referenceStart ++ rest)
  · -- the text is shorter than the mark and a start of it, so that the mark overlaps itself
    have hshort : text.length < referenceStart.length := by
      apply Nat.lt_of_not_le
      intro hle
      exact hfree (List.prefix_of_prefix_length_le hstart (List.prefix_append _ _) hle).isInfix
    have htext : text <+: referenceStart :=
      List.prefix_of_prefix_length_le (List.prefix_append _ _) hstart (Nat.le_of_lt hshort)
    obtain ⟨last, hlast⟩ := htext
    have hdrop : referenceStart.drop text.length = last := by
      rw [← hlast, List.drop_left]
    have hborder : last <+: referenceStart := by
      have hover : last <+: referenceStart ++ rest := by
        rw [← hlast, List.append_assoc] at hstart
        rw [← hlast, List.append_assoc]
        exact (List.prefix_append_right_inj text).mp hstart
      have hlen : last.length ≤ referenceStart.length := by
        rw [← hlast, List.length_append]
        omega
      exact List.prefix_of_prefix_length_le hover (List.prefix_append _ _) hlen
    have hlength : text.length = 19 :=
      referenceStart_border (List.length_pos_iff.mpr hne) hshort (hdrop ▸ hborder)
    have htake : text = referenceStart.take 19 := by
      rw [← hlength, ← hlast, List.take_left]
    rw [htake]
    rfl
  · exact referenceAt?_eq_none hstart

theorem traceParts_before_start {before rest : List Char} (h : ¬referenceStart <:+: before) :
    traceParts (before ++ (referenceStart ++ rest)) =
      before.map .plain ++ traceParts (referenceStart ++ rest) := by
  induction before with
  | nil => rfl
  | cons c before ih =>
    have hnone : referenceAt? (c :: before ++ (referenceStart ++ rest)) = none :=
      referenceAt?_before_start (List.cons_ne_nil c before) h
    have hbefore : ¬referenceStart <:+: before := fun hin =>
      h (hin.trans (List.suffix_cons c before).isInfix)
    rw [List.cons_append] at hnone ⊢
    rw [traceParts_plain hnone, ih hbefore, List.map_cons, List.cons_append]

/-! ### The reference itself -/

def Reference.at (id line column : Nat) : Reference :=
  { id := Text.numeral id
    line := some (Text.numeral line)
    column := some (Text.numeral column) }

theorem colonDigits?_numeral (n : Nat) {rest : List Char}
    (hrest : ∀ c ∈ rest.head?, Text.isDigit c = false) :
    colonDigits? (':' :: (Text.numeral n ++ rest)) = some (Text.numeral n) := by
  have hne : (Text.numeral n).isEmpty = false :=
    List.isEmpty_eq_false_iff.mpr (Text.numeral_ne_nil n)
  simp only [colonDigits?, Text.takeWhile_isDigit_numeral n hrest, hne]
  rfl

theorem Reference.text_at (id line column : Nat) :
    (Reference.at id line column).text = referenceStart ++ (Text.numeral id ++
      (':' :: (Text.numeral line ++ (':' :: Text.numeral column)))) := by
  simp only [Reference.text, Reference.at, List.append_assoc, List.cons_append]

theorem referenceAt?_at (id line column : Nat) {after : List Char}
    (hafter : ∀ c ∈ after.head?, Text.isDigit c = false) :
    referenceAt? ((Reference.at id line column).text ++ after) =
      some (Reference.at id line column) := by
  have hcolon : ∀ c ∈ (':' :: (Text.numeral line ++ (':' :: (Text.numeral column ++ after)))).head?,
      Text.isDigit c = false := by
    intro c hc
    cases hc
    rfl
  have hcolon' : ∀ c ∈ (':' :: (Text.numeral column ++ after)).head?, Text.isDigit c = false := by
    intro c hc
    cases hc
    rfl
  have hne : (Text.numeral id).isEmpty = false :=
    List.isEmpty_eq_false_iff.mpr (Text.numeral_ne_nil id)
  rw [Reference.text_at]
  unfold referenceAt?
  simp only [List.append_assoc, List.cons_append]
  rw [afterStart?_append]
  simp only [Option.bind_eq_bind, Option.bind_some, Text.takeWhile_isDigit_numeral id hcolon, hne,
    List.drop_left, colonDigits?_numeral line hcolon', List.drop_succ_cons,
    colonDigits?_numeral column hafter]
  rfl

/-- A text around one reference falls into its characters and the reference. -/
theorem traceParts_at {before after : List Char} (id line column : Nat)
    (hbefore : ¬referenceStart <:+: before) (hafter : ¬referenceStart <:+: after)
    (hdigit : ∀ c ∈ after.head?, Text.isDigit c = false) :
    traceParts (before ++ ((Reference.at id line column).text ++ after)) =
      before.map .plain ++ .reference (Reference.at id line column) :: after.map .plain := by
  have hparts : traceParts ((Reference.at id line column).text ++ after) =
      .reference (Reference.at id line column) :: after.map .plain := by
    rw [traceParts_reference (referenceAt?_at id line column hdigit), traceParts_of_free hafter]
  have hsplit : (Reference.at id line column).text ++ after = referenceStart ++
      (Text.numeral id ++ (':' :: (Text.numeral line ++ (':' :: Text.numeral column))) ++ after) := by
    rw [Reference.text_at, List.append_assoc]
  rw [← hparts, hsplit]
  exact traceParts_before_start hbefore

end NotebookCell
