import Mathlib.Data.List.DropRight
import Mathlib.Data.List.Nodup
import NotebookCell.Cell.History

/-!
# Records under new ids

A record with an id that the history does not hold goes to the end, and what a limit leaves of the
records is their newest ones.
-/

namespace NotebookCell

def newest (limit : Option Nat) (records : List CellRecord) : List CellRecord :=
  match limit with
  | none => records
  | some count => records.rtake count

theorem newest_sublist (limit : Option Nat) (records : List CellRecord) :
    (newest limit records).Sublist records := by
  cases limit with
  | none => exact List.Sublist.refl _
  | some count => exact List.drop_sublist _ _

theorem length_newest (limit : Option Nat) (records : List CellRecord) :
    (newest limit records).length = limit.elim records.length (min · records.length) := by
  cases limit with
  | none => rfl
  | some count => simp [newest, List.rtake]; omega

/-- Dropping early loses nothing that a limit would leave later. -/
theorem newest_append (limit : Option Nat) (records : List CellRecord) (record : CellRecord) :
    newest limit (newest limit records ++ [record]) = newest limit (records ++ [record]) := by
  cases limit with
  | none => rfl
  | some count =>
    simp only [newest, List.rtake, List.length_append, List.length_drop, List.length_singleton]
    rw [List.drop_append, List.drop_append, List.drop_drop, List.length_drop]
    congr 2 <;> omega

theorem getLast?_newest {limit : Option Nat} (hlimit : limit ≠ some 0) (records : List CellRecord) :
    (newest limit records).getLast? = records.getLast? := by
  cases limit with
  | none => rfl
  | some count =>
    have hcount : count ≠ 0 := fun h => hlimit (by rw [h])
    cases records with
    | nil => simp [newest, List.rtake]
    | cons record records =>
      rw [newest, List.rtake, List.getLast?_drop, if_neg]
      simp only [List.length_cons]
      omega

namespace History

variable {history : History} {record : CellRecord}

theorem get?_eq_none {id : Int} : history.get? id = none ↔ id ∉ history.ids := by
  simp [get?, ids, List.find?_eq_none]

theorem store_of_absent {records : List CellRecord} (h : record.id ∉ records.map CellRecord.id) :
    store record records = records ++ [record] := by
  induction records with
  | nil => rfl
  | cons held rest ih =>
    obtain ⟨hheld, hrest⟩ := List.ne_and_not_mem_of_not_mem_cons h
    simp only [store, if_neg (Ne.symm hheld), ih hrest, List.cons_append]

theorem add_of_absent (h : record.id ∉ history.ids) :
    history.add record =
      { history with records := newest history.limit (history.records ++ [record]) } := by
  simp only [add, store_of_absent h, excess, newest]
  split <;> simp_all [List.rtake]

/-- With distinct ids, the record found under an id is the one that has it. -/
theorem get?_eq_some (hids : history.ids.Nodup) {id : Int} :
    history.get? id = some record ↔ record ∈ history.records ∧ record.id = id := by
  rw [get?]
  constructor
  · intro h
    exact ⟨List.mem_of_find?_eq_some h, by simpa using List.find?_some h⟩
  · rintro ⟨hmem, rfl⟩
    obtain ⟨held, hheld⟩ : ∃ held, history.records.find? (fun held => held.id == record.id) =
        some held := by
      rw [← Option.isSome_iff_exists, List.find?_isSome]
      exact ⟨record, hmem, by simp⟩
    have hid : held.id = record.id := by simpa using List.find?_some hheld
    rw [hheld, List.inj_on_of_nodup_map hids (List.mem_of_find?_eq_some hheld) hmem hid]

theorem item_eq_ok {id : Int} : history.item id = .ok record ↔ history.get? id = some record := by
  unfold item
  split <;> simp_all

theorem item_eq_error {id : Int} :
    history.item id = .error (.noRecord id) ↔ id ∉ history.ids := by
  rw [← get?_eq_none]
  unfold item
  split <;> simp_all

theorem contains_iff {id : Int} : history.contains id = true ↔ id ∈ history.ids := by
  rw [contains, Option.isSome_iff_ne_none, ne_eq, get?_eq_none, not_not]

end History

end NotebookCell
