import NotebookCell.Edit.Calls
import NotebookCell.Proofs.Edit.Slots

/-!
# Calls that fail

An edit made in place does what the edit does, or it breaks off before it has touched the buffer. So a
call fails exactly if its offsets leave the buffer, and the calls that fail, as well as those that only
look at the text, can be left out without a later call noticing.
-/

namespace NotebookCell

namespace Editing

variable {buffer : EditBuffer} {index : Nat}

theorem slotNumber_run (h : index < buffer.size) :
    (slotNumber index).run buffer = .ok index buffer := by
  simp [slotNumber, h]

theorem readSlot_run (h : index < buffer.size) :
    (readSlot index).run buffer = .ok ((buffer.slots[index]?).getD []) buffer := by
  rw [readSlot, EStateM.run_bind, slotNumber_run h]
  rfl

theorem writeSlot_run (h : index < buffer.size) (text : MappedText) :
    (writeSlot index text).run buffer = .ok () { buffer with slots := buffer.slots.set index text } := by
  simp [writeSlot, slotNumber_run h]

theorem insertAt_run (h : index ≤ buffer.size) (text : Fragment) :
    (insertAt index text).run buffer = .ok () (buffer.insertAt index text) := by
  simp only [insertAt, EStateM.run_bind, EStateM.run_get, EditBuffer.insertAt, Int.natCast_inj]
  by_cases hend : index = buffer.size
  · simp only [if_pos hend, append, EStateM.run_modify]
  · have hlt : index < buffer.size := by omega
    simp only [if_neg hend, EStateM.run_bind, readSlot_run hlt, writeSlot_run hlt, List.modify_eq_set]
    rfl

theorem clearBehind_run {count : Nat} (h : index + count < buffer.size) :
    (clearBehind index count).run buffer = .ok () { buffer with
      slots := buffer.slots.mapIdx fun place held =>
        if index < place ∧ place ≤ index + count then [] else held } := by
  unfold clearBehind
  induction count with
  | zero =>
    refine congrArg (EStateM.Result.ok ()) (EditBuffer.ext_slots (fun place => ?_) rfl rfl)
    have hnone : ¬(index < place ∧ place ≤ index) := by omega
    simp [hnone]
  | succ count ih =>
    have hnext : (index + 1 + count : Int) = (index + 1 + count : Nat) := by omega
    have hsize : index + 1 + count < buffer.slots.length := by
      have := h
      unfold EditBuffer.size at this
      omega
    simp only [List.range_succ, List.forM_append, List.forM_cons, List.forM_nil, bind_pure_unit, hnext,
      EStateM.run_bind, ih (by omega)]
    rw [writeSlot_run (by simpa [EditBuffer.size] using hsize)]
    refine congrArg (EStateM.Result.ok ()) (EditBuffer.ext_slots (fun place => ?_) rfl rfl)
    simp only [List.getElem?_set, List.length_mapIdx, List.getElem?_mapIdx]
    by_cases hplace : index + 1 + count = place
    · subst hplace
      have hin : index < index + 1 + count ∧ index + 1 + count ≤ index + (count + 1) := by omega
      simp [hsize, hin]
    · have hsame : index < place ∧ place ≤ index + count ↔
          index < place ∧ place ≤ index + (count + 1) := by omega
      simp only [if_neg hplace, hsame]

theorem checkRange_run (start stop : Int) (buffer : EditBuffer) :
    (checkRange start stop).run buffer =
      if 0 ≤ start ∧ start ≤ stop ∧ stop ≤ buffer.size then .ok () buffer
      else .error (.rangeOutside start stop buffer.size) buffer := by
  simp only [checkRange, EStateM.run_bind, EStateM.run_get]
  split <;> simp_all

theorem checkSlot_run (index : Int) (buffer : EditBuffer) :
    (checkSlot index).run buffer =
      if 0 ≤ index ∧ index < buffer.size then .ok () buffer
      else .error (.slotOutside index buffer.size) buffer := by
  simp only [checkSlot, EStateM.run_bind, EStateM.run_get]
  split <;> simp_all

end Editing

open Editing

theorem fillRange_run {buffer : EditBuffer} {start stop : Nat} (hlt : start < stop)
    (hle : stop ≤ buffer.size) (text : Fragment) :
    (do
      let held ← readSlot start
      writeSlot start (text.toMapped held.firstOrigin)
      clearBehind start ((stop : Int) - start - 1).toNat).run buffer =
      .ok () (buffer.fillRange start stop text) := by
  have hstart : start < buffer.size := by omega
  have hcount : ((stop : Int) - start - 1).toNat = stop - start - 1 := by omega
  have hfill := EditBuffer.fillRange_eq buffer start stop text (by omega) (by omega) (by omega)
  rw [Int.toNat_natCast, Int.toNat_natCast] at hfill
  simp only [EStateM.run_bind, readSlot_run hstart, writeSlot_run hstart, hcount]
  rw [clearBehind_run (by simp only [EditBuffer.size, List.length_set] at hle ⊢; omega), hfill]
  have hne : start ≠ stop := Nat.ne_of_lt hlt
  refine congrArg (EStateM.Result.ok ()) (EditBuffer.ext_slots (fun place => ?_) rfl ?_)
  · simp only [EditBuffer.afterOne, List.getElem?_mapIdx, List.getElem?_set, Edit.onSlot,
      Int.ofNat_le, Int.ofNat_lt, Int.natCast_inj, hne, if_false]
    by_cases hplace : start = place
    · subst hplace
      have hslot : start < buffer.slots.length := hstart
      simp [hslot, hlt]
    · have hsame : start < place ∧ place ≤ start + (stop - start - 1) ↔ start ≤ place ∧ place < stop := by
        omega
      simp only [hplace, if_false, hsame]
  · simp only [EditBuffer.afterOne, Edit.onTail, Int.natCast_inj, hne, false_and, if_false]

/-- An edit in place makes of the buffer what the edit makes of it, and nothing if it cannot be made. -/
theorem Edit.perform_run (edit : Edit) (buffer : EditBuffer) :
    edit.perform.run buffer =
      match buffer.apply edit with
      | .ok after => .ok () after
      | .error error => .error error buffer := by
  cases edit with
  | replace start stop text =>
    simp only [perform, EditBuffer.apply, EStateM.run_bind, checkRange_run]
    by_cases hin : 0 ≤ start ∧ start ≤ stop ∧ stop ≤ buffer.size
    · obtain ⟨first, rfl⟩ := Int.eq_ofNat_of_zero_le hin.1
      obtain ⟨past, rfl⟩ := Int.eq_ofNat_of_zero_le (a := stop) (by omega)
      simp only [if_pos hin]
      split
      · exact insertAt_run (by omega) text
      · exact fillRange_run (by omega) (by omega) text
    · simp only [if_neg hin]
  | insertBefore start text =>
    simp only [perform, EditBuffer.apply, EStateM.run_bind, checkSlot_run]
    by_cases hin : 0 ≤ start ∧ start < buffer.size
    · obtain ⟨index, rfl⟩ := Int.eq_ofNat_of_zero_le hin.1
      simp only [if_pos hin]
      exact insertAt_run (by omega) text
    · simp only [if_neg hin]
  | insertAfter stop text =>
    simp only [perform, EditBuffer.apply, EStateM.run_bind, checkSlot_run]
    generalize stop - 1 = last
    by_cases hin : 0 ≤ last ∧ last < buffer.size
    · obtain ⟨index, rfl⟩ := Int.eq_ofNat_of_zero_le hin.1
      have hlt : index < buffer.size := by omega
      simp only [if_pos hin, readSlot_run hlt, writeSlot_run hlt, EditBuffer.extendSlot,
        List.modify_eq_set]
      rfl
    · simp only [if_neg hin]
  | prepend text => rfl
  | append text => rfl

/-! ### Calls on a buffer -/

/-- The offsets of the call lie in a buffer of `size` slots. -/
def BufferCall.InRange (size : Nat) : BufferCall → Prop
  | .edit change => change.InRange size
  | .flush => True

def CallEnd.failed (ended : CallEnd) : Bool :=
  match ended.outcome with
  | .ok _ => false
  | .error _ => true

namespace EditBuffer

theorem call_edit (buffer : EditBuffer) (edit : Edit) :
    buffer.call (.edit edit) =
      match buffer.apply edit with
      | .ok after => { outcome := .ok none, buffer := after }
      | .error error => { outcome := .error error, buffer } := by
  rw [call, BufferCall.perform, EStateM.run_bind, Edit.perform_run]
  cases buffer.apply edit <;> rfl

theorem call_flush (buffer : EditBuffer) :
    buffer.call .flush = { outcome := .ok (some buffer.flush), buffer } := rfl

theorem call_of_not_inRange {buffer : EditBuffer} {call : BufferCall} (h : ¬call.InRange buffer.size) :
    (buffer.call call).failed = true ∧ (buffer.call call).buffer = buffer := by
  cases call with
  | edit edit =>
    obtain ⟨error, herror⟩ := apply_of_not_inRange buffer edit h
    simp [call_edit, herror, CallEnd.failed]
  | flush => exact absurd trivial h

theorem call_of_inRange {buffer : EditBuffer} {call : BufferCall} (h : call.InRange buffer.size) :
    (buffer.call call).failed = false ∧ (buffer.call call).buffer.size = buffer.size := by
  cases call with
  | edit edit => simp [call_edit, apply_of_inRange buffer edit h, CallEnd.failed]
  | flush => exact ⟨rfl, rfl⟩

theorem failed_call_iff (buffer : EditBuffer) (call : BufferCall) :
    (buffer.call call).failed = true ↔ ¬call.InRange buffer.size := by
  by_cases h : call.InRange buffer.size
  · simp [call_of_inRange h, h]
  · simp [call_of_not_inRange h, h]

theorem size_call (buffer : EditBuffer) (call : BufferCall) :
    (buffer.call call).buffer.size = buffer.size := by
  by_cases h : call.InRange buffer.size
  · exact (call_of_inRange h).2
  · rw [(call_of_not_inRange h).2]

def afterCalls (buffer : EditBuffer) (calls : List BufferCall) : EditBuffer :=
  calls.foldl (fun buffer call => (buffer.call call).buffer) buffer

/-- The calls of a row that change the text: those that do not fail, but for flushes. -/
def changes (buffer : EditBuffer) (calls : List BufferCall) : List BufferCall :=
  ((calls.zip (buffer.callAll calls)).filter fun made => made.1 ≠ .flush ∧ !made.2.failed).map Prod.fst

theorem changes_cons (buffer : EditBuffer) (call : BufferCall) (calls : List BufferCall) :
    buffer.changes (call :: calls) =
      (if call ≠ .flush ∧ !(buffer.call call).failed then [call] else []) ++
        (buffer.call call).buffer.changes calls := by
  simp only [changes, callAll, List.zip_cons_cons, List.filter_cons, decide_eq_true_eq]
  split <;> rfl

theorem callAll_append (buffer : EditBuffer) (calls more : List BufferCall) :
    buffer.callAll (calls ++ more) = buffer.callAll calls ++ (buffer.afterCalls calls).callAll more := by
  induction calls generalizing buffer with
  | nil => rfl
  | cons call calls ih =>
    rw [List.cons_append, callAll, callAll, ih]
    rfl

theorem length_callAll (buffer : EditBuffer) (calls : List BufferCall) :
    (buffer.callAll calls).length = calls.length := by
  induction calls generalizing buffer with
  | nil => rfl
  | cons call calls ih => simp [callAll, ih]

theorem size_of_mem_callAll {buffer : EditBuffer} {calls : List BufferCall} {ended : CallEnd}
    (h : ended ∈ buffer.callAll calls) : ended.buffer.size = buffer.size := by
  induction calls generalizing buffer with
  | nil => cases h
  | cons call calls ih =>
    rcases List.mem_cons.mp h with rfl | h
    · exact size_call buffer call
    · rw [ih h, size_call]

theorem failed_of_mem_zip {buffer : EditBuffer} {calls : List BufferCall} {call : BufferCall}
    {ended : CallEnd} (h : (call, ended) ∈ calls.zip (buffer.callAll calls)) :
    ended.failed = true ↔ ¬call.InRange buffer.size := by
  induction calls generalizing buffer with
  | nil => cases h
  | cons first calls ih =>
    rw [callAll, List.zip_cons_cons] at h
    rcases List.mem_cons.mp h with h | h
    · obtain ⟨rfl, rfl⟩ := Prod.mk.inj h
      exact failed_call_iff buffer call
    · rw [ih h, size_call]

theorem afterCalls_changes (buffer : EditBuffer) (calls : List BufferCall) :
    buffer.afterCalls (buffer.changes calls) = buffer.afterCalls calls := by
  induction calls generalizing buffer with
  | nil => rfl
  | cons call calls ih =>
    have hnext : buffer.afterCalls (call :: calls) = (buffer.call call).buffer.afterCalls calls := rfl
    rw [changes_cons, hnext, ← ih]
    by_cases hflush : call = .flush
    · subst hflush
      rfl
    · by_cases hin : call.InRange buffer.size
      · rw [if_pos ⟨hflush, by simp [call_of_inRange hin]⟩]
        rfl
      · obtain ⟨hfailed, hkept⟩ := call_of_not_inRange hin
        rw [if_neg (by simp [hfailed]), hkept]
        rfl

/-- Every call leaves the number of slots as it is, and fails exactly if its offsets leave the buffer. A
flush answers what it would answer if the calls that failed before it, and the flushes, had not been
made. -/
theorem callAll_without_failures (source : MappedText) (calls : List BufferCall) :
    ((ofText source).callAll calls).length = calls.length ∧
      (∀ ended ∈ (ofText source).callAll calls, ended.buffer.size = source.length) ∧
      (∀ call ended, (call, ended) ∈ calls.zip ((ofText source).callAll calls) →
        (ended.failed = true ↔ ¬call.InRange source.length)) ∧
      ∀ earlier later, calls = earlier ++ .flush :: later →
        ∃ text, ((ofText source).callAll calls)[earlier.length]?.map CallEnd.outcome =
            some (.ok (some text)) ∧
          ((ofText source).callAll ((ofText source).changes earlier ++ [.flush])).getLast?.map
            CallEnd.outcome = some (.ok (some text)) := by
  have hsize : (ofText source).size = source.length := size_ofText source
  refine ⟨length_callAll _ calls, ?_, ?_, ?_⟩
  · intro ended hended
    rw [size_of_mem_callAll hended, hsize]
  · intro call ended hmem
    rw [failed_of_mem_zip hmem, hsize]
  · rintro earlier later rfl
    refine ⟨((ofText source).afterCalls earlier).flush, ?_, ?_⟩
    · rw [callAll_append, List.getElem?_append_right (Nat.le_of_eq (length_callAll _ _)), length_callAll,
        Nat.sub_self, callAll, call_flush]
      rfl
    · rw [callAll_append, afterCalls_changes, callAll, call_flush, callAll, List.getLast?_concat]
      rfl

/-- Two edits that can be made, among edits that reach out of a text of two characters and a flush. -/
def mixedCalls : List BufferCall :=
  [.edit (.replace (-1) 1 (.ofString "x")), .edit (.insertBefore 2 (.ofString "y")),
    .edit (.insertAfter 2 (.ofString "!")), .flush, .edit (.insertAfter 0 (.ofString "z")),
    .edit (.replace 2 2 (.ofString "?"))]

theorem callAll_without_failures_applied :
    (∀ ended ∈ (ofText (.ofString "ab")).callAll (mixedCalls ++ [.flush]), ended.buffer.size = 2) ∧
      (((ofText (.ofString "ab")).callAll (mixedCalls ++ [.flush])).map CallEnd.failed =
        [true, true, false, false, true, false, false]) ∧
      ¬BufferCall.InRange 2 (.edit (.replace (-1) 1 (.ofString "x"))) ∧
      (ofText (.ofString "ab")).changes mixedCalls =
        [.edit (.insertAfter 2 (.ofString "!")), .edit (.replace 2 2 (.ofString "?"))] ∧
      ((ofText (.ofString "ab")).callAll (mixedCalls ++ [.flush]))[6]?.map CallEnd.outcome =
        some (.ok (some (.ofString "ab!?"))) ∧
      ((ofText (.ofString "ab")).callAll [.edit (.insertAfter 2 (.ofString "!")),
        .edit (.replace 2 2 (.ofString "?")), .flush]).getLast?.map CallEnd.outcome =
          some (.ok (some (.ofString "ab!?"))) := by
  obtain ⟨-, hsize, hfailed, hflush⟩ :=
    callAll_without_failures (.ofString "ab") (mixedCalls ++ [.flush])
  have hchanges : (ofText (.ofString "ab")).changes mixedCalls =
      [.edit (.insertAfter 2 (.ofString "!")), .edit (.replace 2 2 (.ofString "?"))] := by
    decide +kernel
  have hanswer : ((ofText (.ofString "ab")).callAll (mixedCalls ++ [.flush]))[6]?.map CallEnd.outcome =
      some (.ok (some (.ofString "ab!?"))) := rfl
  obtain ⟨text, hthere, hlast⟩ := hflush mixedCalls [] rfl
  have htext : text = .ofString "ab!?" := by
    have hsame := hthere.symm.trans hanswer
    simpa using hsame
  rw [hchanges, htext] at hlast
  exact ⟨hsize, rfl, (hfailed _ _ List.mem_cons_self).mp rfl, hchanges, hanswer, hlast⟩

end EditBuffer

end NotebookCell
