import NotebookCell.Proofs.Edit.Parts

/-!
# What edits leave from a place on

A text in place of an empty range goes in front of the slot behind it, or behind all slots if there
is none. The rest of a text, from a place on, is where such an edit can be followed.
-/

namespace NotebookCell.Edit

variable {source : MappedText} {lo hi place : Nat} {edits a b inner : List Edit}

/-- What a round of edits leaves of the text from `lo` on, and behind it. -/
def remainder (source : MappedText) (edits : List Edit) (lo : Nat) : MappedText :=
  patch source edits lo source.length ++ edits.foldl (onTail source.length) []

/-- No edit is felt in front of `lo`. -/
def AllFrom (lo : Nat) (edits : List Edit) : Prop :=
  ∀ k, k < lo → ∀ held, content edits k held = held

theorem allFrom_nil (lo : Nat) : AllFrom lo [] := fun _ _ _ => rfl

theorem AllFrom.mono (h : AllFrom hi edits) (hle : lo ≤ hi) : AllFrom lo edits := by
  intro k hk held
  exact h k (by omega) held

theorem AllFrom.append (h : AllFrom lo a) (h' : AllFrom lo b) : AllFrom lo (a ++ b) := by
  intro k hk held
  rw [content_append, h k hk, h' k hk]

theorem AllWithin.allFrom (h : AllWithin lo hi edits) : AllFrom lo edits := by
  intro k hk held
  exact h.content_outside (Or.inl hk) held

theorem allFrom_replace (lo hi : Nat) (text : Fragment) : AllFrom lo [.replace lo hi text] := by
  intro k hk held
  have hne : ¬ (lo : Int) = k := by omega
  have hout : ¬ ((lo : Int) ≤ k ∧ (k : Int) < hi) := by omega
  simp only [content_cons, content_nil, onSlot, hne, hout, if_false, ite_self]

theorem AllFrom.agree_nil (h : AllFrom hi edits) : Agree lo hi edits [] := by
  intro k _ hk held
  exact h k hk held

theorem AllFrom.patch_eq (h : AllFrom hi edits) (hle : lo ≤ hi) (source : MappedText) :
    patch source edits lo hi = source.segment lo hi := by
  apply patch_untouched source hle
  intro k _ hk held
  exact h k hk held

theorem remainder_append (hle : lo ≤ hi) (hhi : hi ≤ source.length) :
    remainder source edits lo = patch source edits lo hi ++ remainder source edits hi := by
  rw [remainder, remainder, ← patch_append source edits hle hhi, List.append_assoc]

theorem AllWithin.foldl_onTail (h : AllWithin lo hi edits) (size : Nat) (tail : MappedText) :
    edits.foldl (onTail size) tail = tail := by
  induction edits with
  | nil => rfl
  | cons edit edits ih =>
    rw [List.foldl_cons, (h edit List.mem_cons_self).onTail_eq]
    exact ih fun e he => h e (List.mem_cons_of_mem edit he)

theorem remainder_drop (h : AllWithin lo hi inner) (hle : hi ≤ place) :
    remainder source (a ++ (inner ++ b)) place = remainder source (a ++ b) place := by
  have hagree : Agree place source.length (a ++ (inner ++ b)) (a ++ ([] ++ b)) :=
    (agree_refl _ _ a).append ((h.agree_nil (Or.inr hle)).append (agree_refl _ _ b))
  rw [remainder, remainder, hagree.patch_eq source, List.nil_append, List.foldl_append,
    List.foldl_append, List.foldl_append, h.foldl_onTail]

/-- A text in place of an empty range stands in front of what is left from there on, if nothing
comes in between. -/
theorem remainder_insert (hplace : place ≤ source.length) (hquiet : AllFrom (place + 1) edits)
    (hend : place = source.length → edits = []) (text : Fragment) :
    remainder source (.replace place place text :: edits) place =
      text.toMapped ++ remainder source edits place := by
  have hkept : ∀ held, content edits place held = held := hquiet place (Nat.lt_succ_self place)
  by_cases hlast : place = source.length
  · rw [hend hlast, remainder, remainder, hlast, patch_self, patch_self]
    simp only [List.foldl_cons, List.foldl_nil, onTail, and_self, if_true, List.nil_append,
      List.append_nil]
  · have hlt : place < source.length := by omega
    have hrest : Agree (place + 1) source.length (.replace place place text :: edits) edits := by
      intro k hk _ held
      have hne : ¬ (place : Int) = k := by omega
      simp only [content_cons, onSlot, hne, if_true, if_false]
    have htail : ¬ (place : Int) = source.length := by omega
    rw [remainder, remainder, patch_cons_slot source _ hlt, patch_cons_slot source edits hlt,
      hrest.patch_eq source, List.foldl_cons, content_cons, hkept, hkept]
    simp only [onSlot, onTail, htail, and_false, if_true, if_false, List.append_assoc]

end NotebookCell.Edit
