import NotebookCell.Proofs.Edit.Patch
import NotebookCell.Proofs.Pass.Runs

/-!
# Passes over the body of a wrapped cell

If the tree is not flagged and holds a body, a pass makes the edits that it plans there.
-/

namespace NotebookCell

open Planner

variable {source : MappedText} {tree body : SyntaxTree}

theorem MappedText.length_chars (h : ∀ c ∈ source, c.IsSingle) :
    source.chars.length = source.length := by
  induction source with
  | nil => rfl
  | cons c source ih =>
    obtain ⟨ch, hglyph⟩ := h c List.mem_cons_self
    have hrest := ih fun d hd => h d (List.mem_cons_of_mem c hd)
    rw [chars_cons hglyph, List.length_cons, hrest, List.length_cons]

theorem MappedText.isSingle_ofString (text : String) :
    ∀ c ∈ MappedText.ofString text, c.IsSingle := by
  intro c hc
  obtain ⟨ch, _, rfl⟩ := List.mem_map.mp hc
  exact ⟨ch, rfl⟩

theorem ok_of_bind {ε α β : Type} {first : Except ε α} {next : α → Except ε β} {b : β}
    (h : (first >>= next) = .ok b) : ∃ a, first = .ok a ∧ next a = .ok b := by
  cases first with
  | error e => cases h
  | ok a => exact ⟨a, rfl, h⟩

theorem ok_of_ofTree {α : Type} {question : Except TreeError α} {a : α}
    (h : ParseError.ofTree question = .ok a) : question = .ok a := by
  cases question with
  | error e => cases h
  | ok b =>
    cases h
    rfl

theorem kind_of_wrappedBody {doc : Document} (h : doc.wrappedBody source = .ok body) :
    body.kind = "statement_block" := by
  unfold Document.wrappedBody at h
  split at h
  · split at h
    · obtain ⟨expression, _, h⟩ := ok_of_bind h
      split at h
      · split at h
        · cases h
        · split at h
          · rename_i hk
            cases h
            exact beq_iff_eq.mp hk
          · cases h
      · obtain ⟨_, _, h⟩ := ok_of_bind h
        cases h
    · cases h
  · obtain ⟨_, _, h⟩ := ok_of_bind h
    cases h
  · cases h

theorem editBody_of_plans {plan : Document → SyntaxTree → Planner Unit} {edits : List Edit}
    (hflag : tree.info.hasError = false)
    (hbody : (Document.ofTree source.chars tree).wrappedBody source = .ok body)
    (hplans : (plan (Document.ofTree source.chars tree) body).Plans false edits)
    (hrange : ∀ edit ∈ edits, edit.InRange source.length) :
    editBody plan source tree = .ok ((EditBuffer.ofText source).after edits).flush := by
  have hread : Document.read source tree = .ok (Document.ofTree source.chars tree) := by
    rw [Document.read, hflag, if_neg Bool.false_ne_true]
  have hmade : (EditBuffer.ofText source).applyAll edits =
      .ok ((EditBuffer.ofText source).after edits) := by
    apply EditBuffer.applyAll_of_inRange
    rw [EditBuffer.size_ofText]
    exact hrange
  have hrun := hplans []
  rw [List.nil_append] at hrun
  simp only [editBody, hread, hbody, carryOut]
  rw [hrun]
  simp only [hmade]
  rfl

/-- Edits that are felt in one range only leave the rest of the text alone. -/
theorem editBody_of_within {plan : Document → SyntaxTree → Planner Unit} {edits : List Edit}
    {lo hi : Nat} (hflag : tree.info.hasError = false)
    (hbody : (Document.ofTree source.chars tree).wrappedBody source = .ok body)
    (hplans : (plan (Document.ofTree source.chars tree) body).Plans false edits)
    (hwithin : Edit.AllWithin lo hi edits) (hle : lo ≤ hi) (hhi : hi ≤ source.length) :
    editBody plan source tree =
      .ok (source.take lo ++ Edit.patch source edits lo hi ++ source.drop hi) := by
  have hall : Edit.AllWithin 0 source.length edits := hwithin.mono (Nat.zero_le lo) hhi
  have hfront : Edit.patch source edits 0 lo = source.take lo := by
    rw [Edit.patch_untouched source (Nat.zero_le lo) fun k _ hk held =>
      hwithin.content_outside (Or.inl hk) held]
    rfl
  have hback : Edit.patch source edits hi source.length = source.drop hi := by
    rw [Edit.patch_untouched source hhi fun k hk _ held =>
      hwithin.content_outside (Or.inr hk) held, MappedText.segment, List.take_length]
  rw [editBody_of_plans hflag hbody hplans fun edit he => (hall edit he).inRange (Nat.le_refl _),
    (EditBuffer.flush_applyAll_within source edits hall).2,
    ← Edit.patch_append source edits (Nat.zero_le lo) (Nat.le_trans hle hhi),
    ← Edit.patch_append source edits hle hhi, hfront, hback, List.append_assoc]

end NotebookCell
