import NotebookCell.Edit.Buffer

/-!
# Edits slot by slot

No edit looks at two slots: what a slot holds after a round of edits depends only on what it held
before and on the edits that address it. `Edit.content` is that function, and `applyAll_ok_iff` says
that a round of edits is exactly this function at every slot, together with the text that has been
put in front of all slots and behind them.
-/

namespace NotebookCell

/-! ### One edit -/

/-- The edit can be made in a buffer of `size` slots. -/
def Edit.InRange (size : Nat) : Edit → Prop
  | .replace start stop _ => 0 ≤ start ∧ start ≤ stop ∧ stop ≤ size
  | .insertBefore start _ => 0 ≤ start ∧ start < size
  | .insertAfter stop _ => 0 ≤ stop - 1 ∧ stop - 1 < size
  | .prepend _ => True
  | .append _ => True

/-- What an edit makes of the content of slot `place`. -/
def Edit.onSlot (place : Nat) (held : MappedText) : Edit → MappedText
  | .replace start stop text =>
    if start = stop then
      if start = place then text.toMapped ++ held else held
    else if start ≤ place ∧ place < stop then
      if start = place then text.toMapped held.firstOrigin else []
    else held
  | .insertBefore start text => if start = place then text.toMapped ++ held else held
  | .insertAfter stop text => if stop - 1 = place then held ++ text.toMapped else held
  | .prepend _ => held
  | .append _ => held

/-- What an edit makes of the text in front of all slots. -/
def Edit.onHead (head : MappedText) : Edit → MappedText
  | .prepend text => text.toMapped ++ head
  | _ => head

/-- What an edit makes of the text behind all slots, of which there are `size`. -/
def Edit.onTail (size : Nat) (tail : MappedText) : Edit → MappedText
  | .replace start stop text =>
    if start = stop ∧ start = size then tail ++ text.toMapped else tail
  | .append text => tail ++ text.toMapped
  | _ => tail

namespace EditBuffer

def afterOne (buffer : EditBuffer) (edit : Edit) : EditBuffer where
  slots := buffer.slots.mapIdx fun place held => edit.onSlot place held
  head := edit.onHead buffer.head
  tail := edit.onTail buffer.size buffer.tail

theorem ext_slots {a b : EditBuffer} (hs : ∀ k : Nat, a.slots[k]? = b.slots[k]?) (hh : a.head = b.head)
    (ht : a.tail = b.tail) : a = b := by
  cases a
  cases b
  simp only [mk.injEq]
  exact ⟨List.ext_getElem? hs, hh, ht⟩

theorem insertAt_eq (buffer : EditBuffer) (start stop : Int) (text : Fragment)
    (h0 : 0 ≤ start) (he : start = stop) :
    buffer.insertAt start.toNat text = buffer.afterOne (.replace start stop text) := by
  subst he
  have hc : (start.toNat : Int) = start := Int.toNat_of_nonneg h0
  unfold insertAt
  split
  · rename_i hi
    have hn : start = buffer.size := by omega
    refine ext_slots (fun k => ?_) rfl ?_
    · simp only [afterOne, List.getElem?_mapIdx, Edit.onSlot, if_true]
      cases hk : buffer.slots[k]? with
      | none => rfl
      | some held =>
        have hlt : k < buffer.size := (List.getElem?_eq_some_iff.mp hk).1
        have hne : ¬ start = k := by omega
        simp [hne]
    · simp [afterOne, Edit.onTail, hn]
  · rename_i hi
    have hn : ¬ start = buffer.size := by omega
    refine ext_slots (fun k => ?_) rfl ?_
    · simp only [afterOne, List.getElem?_mapIdx, List.getElem?_modify, Edit.onSlot, if_true]
      by_cases hk : start.toNat = k
      · have hs : start = k := by omega
        simp [hs]
      · have hs : ¬ start = k := by omega
        simp [hk, hs]
    · simp [afterOne, Edit.onTail, hn]

theorem insertAt_before_eq (buffer : EditBuffer) (start : Int) (text : Fragment)
    (h0 : 0 ≤ start) (hlt : start < buffer.size) :
    buffer.insertAt start.toNat text = buffer.afterOne (.insertBefore start text) := by
  rw [insertAt_eq buffer start start text h0 rfl]
  have hn : ¬ start = buffer.size := by omega
  simp [afterOne, Edit.onSlot, Edit.onHead, Edit.onTail, hn]

theorem extendSlot_eq (buffer : EditBuffer) (stop : Int) (text : Fragment) (h0 : 0 ≤ stop - 1) :
    buffer.extendSlot (stop - 1).toNat text = buffer.afterOne (.insertAfter stop text) := by
  refine ext_slots (fun k => ?_) rfl rfl
  have hk : (stop - 1).toNat = k ↔ stop - 1 = k := by omega
  simp only [extendSlot, afterOne, List.getElem?_mapIdx, List.getElem?_modify, Edit.onSlot, hk]
  split
  · rfl
  · simp

theorem fillRange_eq (buffer : EditBuffer) (start stop : Int) (text : Fragment)
    (h0 : 0 ≤ start) (hlt : start < stop) (hle : stop ≤ buffer.size) :
    buffer.fillRange start.toNat stop.toNat text = buffer.afterOne (.replace start stop text) := by
  obtain ⟨a, rfl⟩ := Int.eq_ofNat_of_zero_le h0
  obtain ⟨b, rfl⟩ := Int.eq_ofNat_of_zero_le (a := stop) (by omega)
  have hab : a < b := by omega
  have hbn : b ≤ buffer.slots.length := by simpa [size] using hle
  have hne : ¬ (a : Int) = b := by omega
  refine ext_slots (fun k => ?_) rfl (by simp [fillRange, afterOne, Edit.onTail, hne])
  simp only [fillRange, afterOne, List.getElem?_mapIdx, Edit.onSlot, hne, if_false,
    Int.toNat_natCast, Int.natCast_inj, Int.ofNat_lt, Int.ofNat_le]
  rcases Nat.lt_trichotomy k a with hk | hk | hk
  · have hlen : k < (buffer.slots.take a).length := by
      rw [List.length_take]
      omega
    rw [List.getElem?_append_left hlen, List.getElem?_take_of_lt hk]
    have h1 : ¬ (a ≤ k ∧ k < b) := by omega
    simp [h1]
  · subst hk
    have hlen : k < buffer.slots.length := by omega
    rw [List.getElem?_append_right (List.length_take_le k buffer.slots)]
    simp [hab, Nat.min_eq_left (Nat.le_of_lt hlen), List.getElem?_eq_getElem hlen]
  · have hlen : (buffer.slots.take a).length = a := by
      rw [List.length_take]
      omega
    have h1 : ¬ a = k := by omega
    obtain ⟨d, rfl⟩ : ∃ d, k = a + 1 + d := ⟨k - a - 1, by omega⟩
    rw [List.getElem?_append_right (by omega), hlen]
    have hd : a + 1 + d - a = d + 1 := by omega
    rw [hd, List.getElem?_cons_succ]
    by_cases hkb : a + 1 + d < b
    · rw [List.getElem?_append_left (by simp; omega)]
      have hin : a + 1 + d < buffer.slots.length := by omega
      have hrep : d < b - a - 1 := by omega
      have hge : a ≤ a + 1 + d := by omega
      simp [hkb, List.getElem?_eq_getElem hin, hrep, hge, h1]
    · rw [List.getElem?_append_right (by simp; omega), List.getElem?_drop]
      have hidx : b + (d - (List.replicate (b - a - 1) ([] : MappedText)).length) = a + 1 + d := by
        simp only [List.length_replicate]
        omega
      rw [hidx]
      simp [hkb]

/-- An edit in range does at every slot what `Edit.onSlot` says. -/
theorem apply_of_inRange (buffer : EditBuffer) (edit : Edit) (h : edit.InRange buffer.size) :
    buffer.apply edit = .ok (buffer.afterOne edit) := by
  cases edit with
  | replace start stop text =>
    simp only [Edit.InRange] at h
    simp only [apply, h, and_self, if_true]
    split
    · rename_i he
      rw [insertAt_eq buffer start stop text h.1 he]
    · rename_i he
      rw [fillRange_eq buffer start stop text h.1 (by omega) h.2.2]
  | insertBefore start text =>
    simp only [Edit.InRange] at h
    simp only [apply, h, and_self, if_true]
    rw [insertAt_before_eq buffer start text h.1 h.2]
  | insertAfter stop text =>
    simp only [Edit.InRange] at h
    simp only [apply, h, and_self, if_true]
    rw [extendSlot_eq buffer stop text h.1]
  | prepend text =>
    refine congrArg Except.ok (ext_slots (fun k => ?_) rfl rfl)
    simp [afterOne, List.getElem?_mapIdx, Edit.onSlot]
  | append text =>
    refine congrArg Except.ok (ext_slots (fun k => ?_) rfl rfl)
    simp [afterOne, List.getElem?_mapIdx, Edit.onSlot]

theorem apply_of_not_inRange (buffer : EditBuffer) (edit : Edit) (h : ¬ edit.InRange buffer.size) :
    ∃ e, buffer.apply edit = .error e := by
  cases edit with
  | replace start stop text =>
    simp only [Edit.InRange] at h
    exact ⟨.rangeOutside start stop buffer.size, by simp only [apply, h, if_false]⟩
  | insertBefore start text =>
    simp only [Edit.InRange] at h
    exact ⟨.slotOutside start buffer.size, by simp only [apply, h, if_false]⟩
  | insertAfter stop text =>
    simp only [Edit.InRange] at h
    exact ⟨.slotOutside (stop - 1) buffer.size, by simp only [apply, h, if_false]⟩
  | prepend text => exact absurd trivial h
  | append text => exact absurd trivial h

@[simp] theorem size_afterOne (buffer : EditBuffer) (edit : Edit) :
    (buffer.afterOne edit).size = buffer.size := by
  simp [afterOne, size]

end EditBuffer

/-! ### Rounds of edits -/

/-- What a round of edits makes of the content of slot `place`. -/
def Edit.content (edits : List Edit) (place : Nat) (held : MappedText) : MappedText :=
  edits.foldl (fun held edit => edit.onSlot place held) held

@[simp] theorem Edit.content_nil (place : Nat) (held : MappedText) :
    Edit.content [] place held = held := rfl

@[simp] theorem Edit.content_cons (edit : Edit) (edits : List Edit) (place : Nat)
    (held : MappedText) :
    Edit.content (edit :: edits) place held =
      Edit.content edits place (edit.onSlot place held) := rfl

@[simp] theorem Edit.content_append (a b : List Edit) (place : Nat) (held : MappedText) :
    Edit.content (a ++ b) place held = Edit.content b place (Edit.content a place held) := by
  simp [Edit.content, List.foldl_append]

namespace EditBuffer

/-- The buffer after a round of edits that are all in range. -/
def after (buffer : EditBuffer) (edits : List Edit) : EditBuffer where
  slots := buffer.slots.mapIdx fun place held => Edit.content edits place held
  head := edits.foldl Edit.onHead buffer.head
  tail := edits.foldl (Edit.onTail buffer.size) buffer.tail

theorem after_nil (buffer : EditBuffer) : buffer.after [] = buffer := by
  refine ext_slots (fun k => ?_) rfl rfl
  simp [after, List.getElem?_mapIdx]

theorem after_cons (buffer : EditBuffer) (edit : Edit) (edits : List Edit) :
    buffer.after (edit :: edits) = (buffer.afterOne edit).after edits := by
  refine ext_slots (fun k => ?_) rfl ?_
  · simp only [after, afterOne, List.getElem?_mapIdx, Option.map_map]
    rfl
  · simp only [after, size_afterOne, List.foldl_cons]
    rfl

/-- A round of edits goes through exactly if each of them is in range, and then it works slot by
slot. -/
theorem applyAll_ok_iff (buffer result : EditBuffer) (edits : List Edit) :
    buffer.applyAll edits = .ok result ↔
      (∀ edit ∈ edits, edit.InRange buffer.size) ∧ result = buffer.after edits := by
  induction edits generalizing buffer with
  | nil =>
    simp only [applyAll, after_nil, Except.ok.injEq, List.not_mem_nil, false_implies,
      implies_true, true_and]
    exact eq_comm
  | cons edit edits ih =>
    by_cases hin : edit.InRange buffer.size
    · have hstep : buffer.applyAll (edit :: edits) = (buffer.afterOne edit).applyAll edits := by
        simp only [applyAll, apply_of_inRange buffer edit hin]
        rfl
      rw [hstep, ih, after_cons, size_afterOne]
      simp [hin]
    · obtain ⟨e, he⟩ := apply_of_not_inRange buffer edit hin
      have hstep : buffer.applyAll (edit :: edits) = .error e := by
        simp only [applyAll, he]
        rfl
      rw [hstep]
      simp [hin]

theorem applyAll_of_inRange (buffer : EditBuffer) (edits : List Edit)
    (h : ∀ edit ∈ edits, edit.InRange buffer.size) :
    buffer.applyAll edits = .ok (buffer.after edits) :=
  (applyAll_ok_iff buffer _ edits).mpr ⟨h, rfl⟩

/-- Whether a round of edits goes through depends only on the number of slots. -/
theorem applyAll_size (edits : List Edit) {a b : EditBuffer} (h : a.size = b.size) :
    ((a.applyAll edits).map fun _ => ()) = (b.applyAll edits).map fun _ => () := by
  induction edits generalizing a b with
  | nil => rfl
  | cons edit edits ih =>
    by_cases hin : edit.InRange a.size
    · have hin' : edit.InRange b.size := h ▸ hin
      rw [applyAll, applyAll, apply_of_inRange a edit hin, apply_of_inRange b edit hin']
      exact ih (by rw [size_afterOne, size_afterOne, h])
    · have hin' : ¬ edit.InRange b.size := h ▸ hin
      cases edit with
      | prepend text => exact absurd trivial hin
      | append text => exact absurd trivial hin
      | _ =>
        simp only [Edit.InRange] at hin'
        simp only [applyAll, apply, hin', if_false, h]

end EditBuffer

end NotebookCell
