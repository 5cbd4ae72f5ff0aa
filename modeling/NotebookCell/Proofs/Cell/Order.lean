import Mathlib.Data.List.Infix
import NotebookCell.Proofs.Cell.Interleaving

/-!
# The order of ids in a shared history

Records are stored in the order in which their calls end. That is the order of their ids exactly if
no call ends behind one that took its id later.
-/

namespace NotebookCell

/-- The history tells by ids which records are new: it runs through them by id, its latest record has
the greatest id of all that were added, and a limit leaves those with the greatest ids. -/
structure IdOrdered (limit : Option Int) (events : List Event) (shared : Shared) : Prop where
  iteration : shared.history.ids.Pairwise (· < ·)
  latest : ∀ record, shared.history.latest? = some record ↔
    record ∈ added events ∧ ∀ other ∈ added events, other.id ≤ record.id
  retained : ∀ count ∈ limit, ∀ record, record ∈ shared.history.records ↔
    record ∈ added events ∧
      (added events).countP (fun other => decide (record.id < other.id)) < count.toNat

section Rising

variable {records : List CellRecord}

theorem id_le_getLast (h : (records.map CellRecord.id).Pairwise (· < ·)) {last : CellRecord}
    (hlast : records.getLast? = some last) {record : CellRecord} (hmem : record ∈ records) :
    record.id ≤ last.id := by
  obtain ⟨front, rfl⟩ := List.getLast?_eq_some_iff.mp hlast
  rw [List.map_append, List.pairwise_append] at h
  rcases List.mem_append.mp hmem with hfront | hend
  · have hlt := h.2.2 _ (List.mem_map_of_mem hfront) last.id (by simp)
    omega
  · exact Int.le_of_eq (congrArg CellRecord.id (List.mem_singleton.mp hend))

theorem getLast?_iff_greatest (h : (records.map CellRecord.id).Pairwise (· < ·))
    (record : CellRecord) : records.getLast? = some record ↔
      record ∈ records ∧ ∀ other ∈ records, other.id ≤ record.id := by
  constructor
  · intro hlast
    exact ⟨List.mem_of_getLast? hlast, fun other hother => id_le_getLast h hlast hother⟩
  · rintro ⟨hmem, hgreatest⟩
    obtain ⟨last, hlast⟩ : ∃ last, records.getLast? = some last :=
      Option.ne_none_iff_exists'.mp (by simpa using List.ne_nil_of_mem hmem)
    have hid : last.id = record.id :=
      Int.le_antisymm (hgreatest last (List.mem_of_getLast? hlast)) (id_le_getLast h hlast hmem)
    have hnodup : (records.map CellRecord.id).Nodup := h.imp Int.ne_of_lt
    rw [hlast, List.inj_on_of_nodup_map hnodup (List.mem_of_getLast? hlast) hmem hid]

/-- With rising ids, the newest records are those that few ids exceed. -/
theorem mem_rtake_iff (h : (records.map CellRecord.id).Pairwise (· < ·)) (count : Nat)
    (record : CellRecord) : record ∈ records.rtake count ↔
      record ∈ records ∧ records.countP (fun other => decide (record.id < other.id)) < count := by
  by_cases hmem : record ∈ records
  swap
  · have hdrop : record ∉ records.rtake count := fun h' => hmem (List.mem_of_mem_drop h')
    simp [hmem, hdrop]
  obtain ⟨front, back, rfl⟩ := List.append_of_mem hmem
  simp only [List.map_append, List.map_cons, List.pairwise_append, List.pairwise_cons] at h
  have hfront : ∀ other ∈ front, other.id < record.id := fun other hother =>
    h.2.2 _ (List.mem_map_of_mem hother) _ (List.mem_cons_self ..)
  have hback : ∀ other ∈ back, record.id < other.id := fun other hother =>
    h.2.1.1 _ (List.mem_map_of_mem hother)
  have hcount : (front ++ record :: back).countP (fun other => decide (record.id < other.id)) =
      back.length := by
    rw [List.countP_append, List.countP_eq_zero.mpr, List.countP_cons_of_neg (by simp),
      List.countP_eq_length.mpr, Nat.zero_add]
    · exact fun other hother => by simpa using hback other hother
    · exact fun other hother => by simpa using Int.le_of_lt (hfront other hother)
  have habsent : record ∉ back := fun h' => Int.lt_irrefl _ (hback record h')
  rw [hcount, List.rtake, List.length_append, List.length_cons, List.drop_append]
  rcases Nat.lt_or_ge back.length count with hlt | hge
  · rw [show front.length + (back.length + 1) - count - front.length = 0 by omega]
    simp [hlt]
  · obtain ⟨skip, hskip⟩ : ∃ skip,
        front.length + (back.length + 1) - count - front.length = skip + 1 :=
      ⟨back.length - count, by omega⟩
    rw [hskip, List.drop_succ_cons, List.drop_of_length_le (by omega), List.nil_append]
    constructor
    · intro h'
      exact absurd (List.mem_of_mem_drop h') habsent
    · omega

end Rising

theorem addedIds_of_start {earlier events : List Event} (h : earlier <+: events) :
    addedIds earlier <+: addedIds events := (h.filterMap _).map _

theorem IdOrdered.of_rising {limit : Option Int} {events : List Event} {shared : Shared}
    (h : Accounted limit events shared) (hrising : (addedIds events).Pairwise (· < ·)) :
    IdOrdered limit events shared := by
  refine ⟨?_, ?_, ?_⟩
  · rw [History.ids, h.content]
    exact hrising.sublist ((newest_sublist _ _).map _)
  · intro record
    rw [History.latest?, h.content, getLast?_newest h.positive]
    exact getLast?_iff_greatest hrising record
  · intro count hcount record
    rw [h.content, h.limit_eq, Option.mem_def.mp hcount]
    exact mem_rtake_iff hrising count.toNat record

/-- If the latest record is the greatest at every moment, ids only rise. -/
theorem rising_of_latest {limit : Option Int} {events : List Event} {shared : Shared}
    (h : Reached limit events shared)
    (hordered : ∀ earlier before, earlier <+: events → Reached limit earlier before →
      IdOrdered limit earlier before) :
    (addedIds events).Pairwise (· < ·) := by
  induction h with
  | fresh _ => exact List.Pairwise.nil
  | @step events shared shared' event hreached hstep ih =>
    have hrest : (addedIds events).Pairwise (· < ·) := ih fun earlier before hstart =>
      hordered earlier before (hstart.trans (List.prefix_append _ _))
    have hnext := Accounted.of_reached (hreached.step hstep)
    have hlast := (hordered _ _ (List.prefix_refl _) (hreached.step hstep)).latest
    match event with
    | .taken id => simpa [addedIds] using hrest
    | .ended id (.error error) => simpa [addedIds] using hrest
    | .ended id (.ok record) =>
      have hnodup := hnext.nodup.sublist (List.sublist_append_left _ _)
      rw [addedIds, added_ok, List.map_append, List.map_singleton] at hnodup ⊢
      rw [List.pairwise_append]
      refine ⟨hrest, List.pairwise_singleton _ _, ?_⟩
      intro id hid other hother
      rw [List.mem_singleton] at hother
      subst hother
      obtain ⟨earlier, hearlier, rfl⟩ := List.mem_map.mp hid
      have hgreatest := ((hlast record).mp (by
        rw [History.latest?, hnext.content, getLast?_newest hnext.positive, added_ok]
        simp)).2
      have hle : earlier.id ≤ record.id := hgreatest earlier (by simp [hearlier])
      have hne : earlier.id ≠ record.id :=
        (List.nodup_append.mp hnodup).2.2 _ hid _ (List.mem_singleton_self _)
      omega

/-- The history goes by ids at every moment exactly if records were added in the order of their
ids. -/
theorem idOrdered_iff_rising {limit : Option Int} {events : List Event} {shared : Shared}
    (h : Reached limit events shared) :
    (∀ earlier before, earlier <+: events → Reached limit earlier before →
      IdOrdered limit earlier before) ↔ (addedIds events).Pairwise (· < ·) := by
  constructor
  · exact rising_of_latest h
  · intro hrising earlier before hstart hreached
    exact .of_rising (.of_reached hreached) (hrising.sublist (addedIds_of_start hstart).sublist)

/-- Two calls that end in the order in which they took their ids. -/
theorem idOrdered_iff_rising_applied :
    ∃ events shared, Reached (some 1) events shared ∧ addedIds events = [1, 2] ∧
      shared.history.ids = [2] ∧ IdOrdered (some 1) events shared := by
  obtain ⟨events, shared, hreached, hadded, hids⟩ :
      ∃ events shared, Reached (some 1) events shared ∧ addedIds events = [1, 2] ∧
        shared.history.ids = [2] := by
    have start : Reached (some 1) [] { history := { limit := some 1 } } := .fresh rfl
    have taken := (start.step (.take _ singleNameCall)).step (.take _ singleNameCall)
    have first := taken.step (.finish _ [] [(2, singleNameCall)] 1 singleNameCall)
    exact ⟨_, _, first.step (.finish _ [] [] 2 singleNameCall), rfl, rfl⟩
  refine ⟨events, shared, hreached, hadded, hids, ?_⟩
  exact (idOrdered_iff_rising hreached).mpr (by rw [hadded]; decide) _ _ (List.prefix_refl _) hreached

/-- Two calls, the second of which ends first: whatever the limit, the latest record has the smaller
id, and a limit of one drops the greater id. -/
theorem overtaken_not_idOrdered :
    (∃ events shared, Reached none events shared ∧ addedIds events = [2, 1] ∧
      shared.history.ids = [2, 1] ∧ shared.history.latest?.map CellRecord.id = some 1 ∧
      ¬ IdOrdered none events shared) ∧
    ∃ events shared, Reached (some 1) events shared ∧ addedIds events = [2, 1] ∧
      shared.history.ids = [1] ∧ ¬ IdOrdered (some 1) events shared := by
  constructor
  · have start : Reached none [] { history := {} } := .fresh rfl
    have taken := (start.step (.take _ singleNameCall)).step (.take _ singleNameCall)
    have second := taken.step (.finish _ [(1, singleNameCall)] [] 2 singleNameCall)
    refine ⟨_, _, second.step (.finish _ [] [] 1 singleNameCall), rfl, rfl, rfl, fun h => ?_⟩
    have hids : List.Pairwise (· < ·) ([2, 1] : List Int) := h.iteration
    exact absurd hids (by decide)
  · obtain ⟨events, shared, hreached, hadded, hids, hlatest⟩ :
        ∃ events shared, Reached (some 1) events shared ∧ addedIds events = [2, 1] ∧
          shared.history.ids = [1] ∧ shared.history.latest?.map CellRecord.id = some 1 := by
      have start : Reached (some 1) [] { history := { limit := some 1 } } := .fresh rfl
      have taken := (start.step (.take _ singleNameCall)).step (.take _ singleNameCall)
      have second := taken.step (.finish _ [(1, singleNameCall)] [] 2 singleNameCall)
      exact ⟨_, _, second.step (.finish _ [] [] 1 singleNameCall), rfl, rfl, rfl⟩
    refine ⟨events, shared, hreached, hadded, hids, fun h => ?_⟩
    obtain ⟨latest, hlast, hid⟩ := Option.map_eq_some_iff.mp hlatest
    obtain ⟨record, hrecord, hgreater⟩ : ∃ record ∈ added events, record.id = 2 :=
      List.mem_map.mp (show (2 : Int) ∈ addedIds events by rw [hadded]; decide)
    have hle := ((h.latest latest).mp hlast).2 record hrecord
    omega

end NotebookCell
