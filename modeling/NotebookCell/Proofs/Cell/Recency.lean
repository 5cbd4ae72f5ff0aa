import NotebookCell.Proofs.Cell.Store

/-!
# Records added anew

Records may be added under any ids, also under ids that are held. A history holds the ids that came in
most recently, each with the record added last under it. An id that is held does not come in again when a
record is added under it, so the history goes by the latest adds exactly if only its latest id is added
anew.
-/

namespace NotebookCell

/-- The records that no later one has replaced, in the order of their adds. -/
def lastAdds : List CellRecord → List CellRecord
  | [] => []
  | record :: later =>
    if record.id ∈ later.map CellRecord.id then lastAdds later else record :: lastAdds later

def History.addAll (history : History) (records : List CellRecord) : History :=
  records.foldl History.add history

/-- The records among those added by which ids came in: the history did not hold their ids. -/
def History.arrivals (history : History) : List CellRecord → List CellRecord
  | [] => []
  | record :: later =>
    if history.contains record.id then (history.add record).arrivals later
    else record :: (history.add record).arrivals later

/-- What was added is found, and what is held was added last under its id. The ids are those that came in
most recently. -/
structure KeepsArrivals (limit : Option Nat) (adds arrived : List CellRecord) (history : History) :
    Prop where
  get : ∀ last ∈ adds.getLast?, history.get? last.id = some last
  nodup : history.ids.Nodup
  size : ∀ count ∈ limit, history.size ≤ count
  records : ∀ record ∈ history.records, record ∈ lastAdds adds
  ids : history.ids = (newest limit arrived).map CellRecord.id

/-- The history goes by the latest adds: its latest record is the one added last, and a limit leaves the
ids that were added last. -/
structure KeepsNewest (limit : Option Nat) (adds : List CellRecord) (history : History) : Prop where
  latest : history.latest? = adds.getLast?
  get : ∀ last ∈ adds.getLast?, history.get? last.id = some last
  nodup : history.ids.Nodup
  records : ∀ record, record ∈ history.records ↔ record ∈ newest limit (lastAdds adds)
  /-- What an add drops was added before all that stays. -/
  evicted : ∀ record, ∀ gone ∈ history.evicted record, ∀ kept ∈ (history.add record).records,
    [gone, kept].Sublist (lastAdds (adds ++ [record]))

/-! ### Latest adds -/

section LastAdds

variable {adds : List CellRecord} {record : CellRecord}

theorem filter_of_absent {records : List CellRecord} (h : record.id ∉ records.map CellRecord.id) :
    records.filter (fun held => held.id ≠ record.id) = records := by
  rw [List.filter_eq_self]
  intro held hheld
  exact decide_eq_true fun hsame => h (hsame ▸ List.mem_map_of_mem hheld)

theorem lastAdds_concat (adds : List CellRecord) (record : CellRecord) :
    lastAdds (adds ++ [record]) =
      (lastAdds adds).filter (fun held => held.id ≠ record.id) ++ [record] := by
  induction adds with
  | nil => rfl
  | cons first rest ih =>
    have hmem : first.id ∈ (rest ++ [record]).map CellRecord.id ↔
        first.id ∈ rest.map CellRecord.id ∨ first.id = record.id := by
      rw [List.map_append, List.mem_append, List.map_singleton, List.mem_singleton]
    rw [List.cons_append, lastAdds, lastAdds, ih]
    by_cases hlater : first.id ∈ rest.map CellRecord.id
    · rw [if_pos hlater, if_pos (hmem.mpr (Or.inl hlater))]
    · rw [if_neg hlater]
      by_cases hsame : first.id = record.id
      · rw [if_pos (hmem.mpr (Or.inr hsame)), List.filter_cons_of_neg (by simpa using hsame)]
      · rw [if_neg (mt hmem.mp (not_or.mpr ⟨hlater, hsame⟩)),
          List.filter_cons_of_pos (by simpa using hsame), List.cons_append]

theorem lastAdds_sublist (adds : List CellRecord) : (lastAdds adds).Sublist adds := by
  induction adds with
  | nil => exact List.Sublist.refl _
  | cons first rest ih =>
    rw [lastAdds]
    split
    · exact ih.cons first
    · exact ih.cons_cons first

theorem nodup_lastAdds (adds : List CellRecord) : ((lastAdds adds).map CellRecord.id).Nodup := by
  induction adds with
  | nil => exact List.nodup_nil
  | cons first rest ih =>
    rw [lastAdds]
    split
    · exact ih
    · rename_i hlater
      rw [List.map_cons, List.nodup_cons]
      exact ⟨fun h => hlater ((lastAdds_sublist rest).map CellRecord.id |>.subset h), ih⟩

theorem mem_lastAdds_concat {held : CellRecord} :
    held ∈ lastAdds (adds ++ [record]) ↔ held ∈ lastAdds adds ∧ held.id ≠ record.id ∨ held = record := by
  rw [lastAdds_concat, List.mem_append, List.mem_filter, List.mem_singleton, decide_eq_true_iff]

end LastAdds

/-! ### What a limit leaves -/

section Newest

variable {limit : Option Nat} {records others : List CellRecord}

theorem newest_nil (limit : Option Nat) : newest limit [] = [] :=
  List.sublist_nil.mp (newest_sublist limit [])

theorem map_newest_congr (h : records.map CellRecord.id = others.map CellRecord.id) :
    (newest limit records).map CellRecord.id = (newest limit others).map CellRecord.id := by
  have hlength : records.length = others.length := by
    simpa only [List.length_map] using congrArg List.length h
  cases limit with
  | none => exact h
  | some count => simp only [newest, List.rtake, List.map_drop, h, hlength]

/-- The newest record is left, and of the others a number that they do not decide. -/
theorem exists_newest_concat (hlimit : limit ≠ some 0) (records : List CellRecord) :
    ∃ gone ≤ records.length, ∀ last, newest limit (records ++ [last]) = records.drop gone ++ [last] := by
  cases limit with
  | none => exact ⟨0, Nat.zero_le _, fun last => rfl⟩
  | some count =>
    have hcount : count ≠ 0 := fun h => hlimit (congrArg some h)
    refine ⟨records.length + 1 - count, by omega, fun last => ?_⟩
    rw [newest, List.rtake, List.length_append, List.length_singleton,
      List.drop_append_of_le_length (by omega)]

theorem mem_newest_concat (hlimit : limit ≠ some 0) (records : List CellRecord) (last : CellRecord) :
    last ∈ newest limit (records ++ [last]) := by
  obtain ⟨gone, -, hnewest⟩ := exists_newest_concat hlimit records
  rw [hnewest]
  exact List.mem_append_right _ (List.mem_singleton_self last)

theorem rtake_append_of_le {α : Type} {count : Nat} (front : List α) {back : List α}
    (h : count ≤ back.length) : (front ++ back).rtake count = back.rtake count := by
  rw [List.rtake, List.rtake, List.length_append, List.drop_append, List.drop_of_length_le (by omega),
    List.nil_append, Nat.add_sub_assoc h, Nat.add_sub_cancel_left]

/-- Which records of an id were dropped earlier does not matter for what is left after one more. -/
theorem newest_filter_concat {last : CellRecord}
    (h : last.id ∉ (newest limit records).map CellRecord.id) :
    newest limit (newest limit records ++ [last]) =
      newest limit (records.filter (fun held => held.id ≠ last.id) ++ [last]) := by
  have hkept := filter_of_absent h
  cases limit with
  | none => exact congrArg (· ++ [last]) hkept.symm
  | some count =>
    simp only [newest, List.rtake] at hkept ⊢
    have hsplit : records.filter (fun held => held.id ≠ last.id) =
        (records.take (records.length - count)).filter (fun held => held.id ≠ last.id) ++
          records.drop (records.length - count) := by
      conv_lhs => rw [← List.take_append_drop (records.length - count) records, List.filter_append, hkept]
    rw [hsplit, List.append_assoc]
    rcases Nat.le_total records.length count with hle | hle
    · rw [Nat.sub_eq_zero_of_le hle]
      rfl
    · have hfull : count ≤ (records.drop (records.length - count) ++ [last]).length := by
        rw [List.length_append, List.length_drop]
        omega
      exact (rtake_append_of_le _ hfull).symm

end Newest

/-! ### One add -/

namespace History

variable {history : History} {record : CellRecord}

/-- A record under a held id takes the place of the record that was there. -/
theorem exists_store_of_mem {records : List CellRecord} (h : record.id ∈ records.map CellRecord.id) :
    ∃ front held back, records = front ++ held :: back ∧ held.id = record.id ∧
      store record records = front ++ record :: back := by
  induction records with
  | nil => cases h
  | cons first rest ih =>
    by_cases hfirst : first.id = record.id
    · exact ⟨[], first, rest, rfl, hfirst, if_pos hfirst⟩
    · have hrest : record.id ∈ rest.map CellRecord.id :=
        (List.mem_cons.mp h).resolve_left (Ne.symm hfirst)
      obtain ⟨front, held, back, rfl, hid, hstore⟩ := ih hrest
      exact ⟨first :: front, held, back, rfl, hid, by rw [store, if_neg hfirst, hstore]; rfl⟩

theorem store_last {front : List CellRecord} {last : CellRecord}
    (hfront : record.id ∉ front.map CellRecord.id) (hid : last.id = record.id) :
    store record (front ++ [last]) = front ++ [record] := by
  induction front with
  | nil => exact if_pos hid
  | cons first front ih =>
    obtain ⟨hfirst, hrest⟩ := List.ne_and_not_mem_of_not_mem_cons hfront
    rw [List.cons_append, store, if_neg (Ne.symm hfirst), ih hrest, List.cons_append]

/-- There is no more in the history than its limit allows. -/
def Fits (history : History) : Prop := history.excess = 0

theorem excess_eq_of_length {other : List CellRecord} (h : other.length = history.records.length) :
    excess { history with records := other } = history.excess := by
  rw [excess, excess, h]

theorem add_of_mem (hfits : history.Fits) {front back : List CellRecord} {held : CellRecord}
    (hrecords : history.records = front ++ held :: back)
    (hstore : store record history.records = front ++ record :: back) :
    history.add record = { history with records := front ++ record :: back } ∧
      history.evicted record = [] := by
  have hlength : (front ++ record :: back).length = history.records.length := by
    rw [hrecords, List.length_append, List.length_append, List.length_cons, List.length_cons]
  have hexcess : excess { history with records := front ++ record :: back } = 0 :=
    (excess_eq_of_length hlength).trans hfits
  simp only [add, evicted, hstore, hexcess, List.drop_zero, List.take_zero, and_self]

theorem size_eq_length_ids (history : History) : history.size = history.ids.length := by
  rw [size, ids, List.length_map]

theorem limit_addAll (history : History) (records : List CellRecord) :
    (history.addAll records).limit = history.limit := by
  induction records generalizing history with
  | nil => rfl
  | cons record later ih => exact ih (history.add record)

theorem addAll_concat (history : History) (records : List CellRecord) (record : CellRecord) :
    history.addAll (records ++ [record]) = (history.addAll records).add record :=
  List.foldl_concat ..

theorem arrivals_concat (history : History) (records : List CellRecord) (record : CellRecord) :
    history.arrivals (records ++ [record]) = history.arrivals records ++
      if (history.addAll records).contains record.id then [] else [record] := by
  induction records generalizing history with
  | nil =>
    rw [List.nil_append, arrivals, arrivals]
    rfl
  | cons first rest ih =>
    rw [List.cons_append, arrivals, arrivals, ih]
    split <;> rfl

end History

/-! ### Runs of adds -/

section Runs

variable {limit : Option Nat} {adds arrived : List CellRecord} {history : History} {record : CellRecord}

theorem get?_of_mem (hnodup : history.ids.Nodup) (hmem : record ∈ history.records) :
    ∀ last ∈ (adds ++ [record]).getLast?, history.get? last.id = some last := by
  rintro last hlast
  rw [List.getLast?_concat] at hlast
  obtain rfl := Option.some.inj hlast
  exact (History.get?_eq_some hnodup).mpr ⟨hmem, rfl⟩

theorem KeepsArrivals.fits (h : KeepsArrivals limit adds arrived history)
    (hlimit : history.limit = limit) : history.Fits := by
  rw [History.Fits, History.excess, hlimit]
  cases limit with
  | none => rfl
  | some count => exact Nat.sub_eq_zero_of_le (h.size count rfl)

/-- A record under a held id brings no new id. -/
theorem KeepsArrivals.add_of_mem (h : KeepsArrivals limit adds arrived history)
    (hlimit : history.limit = limit) (hmem : record.id ∈ history.ids) :
    (history.add record).ids = history.ids ∧
      KeepsArrivals limit (adds ++ [record]) arrived (history.add record) := by
  obtain ⟨front, held, back, hrecords, hid, hstore⟩ := History.exists_store_of_mem hmem
  obtain ⟨hadd, -⟩ := History.add_of_mem (h.fits hlimit) hrecords hstore
  have hids : (history.add record).ids = history.ids := by
    rw [hadd, History.ids, History.ids, hrecords]
    simp only [List.map_append, List.map_cons, hid]
  have hnodup : (history.add record).ids.Nodup := hids ▸ h.nodup
  have hin : record ∈ (history.add record).records := by
    rw [hadd]
    exact List.mem_append_right _ List.mem_cons_self
  refine ⟨hids, get?_of_mem hnodup hin, hnodup, ?_, ?_, hids.trans h.ids⟩
  · intro count hcount
    rw [History.size_eq_length_ids, hids, ← History.size_eq_length_ids]
    exact h.size count hcount
  · intro other hother
    rw [hadd] at hnodup hother
    have hothers : ((front ++ record :: back).map CellRecord.id).Nodup := hnodup
    rw [List.map_append, List.map_cons, List.nodup_middle, List.nodup_cons, ← List.map_append] at hothers
    rw [mem_lastAdds_concat]
    rw [List.mem_append, List.mem_cons, or_left_comm, ← List.mem_append] at hother
    rcases hother with rfl | hother
    · exact Or.inr rfl
    · have hheld : other ∈ history.records := by
        rw [hrecords]
        exact (List.sublist_cons_self held back).append_left front |>.subset hother
      exact Or.inl ⟨h.records other hheld, fun hsame => hothers.1 (hsame ▸ List.mem_map_of_mem hother)⟩

/-- A record under a new id comes in last. -/
theorem KeepsArrivals.add_of_absent (h : KeepsArrivals limit adds arrived history)
    (hlimit : history.limit = limit) (hpos : limit ≠ some 0) (habsent : record.id ∉ history.ids) :
    KeepsArrivals limit (adds ++ [record]) (arrived ++ [record]) (history.add record) := by
  have hadd : history.add record =
      { history with records := newest limit (history.records ++ [record]) } := by
    rw [History.add_of_absent habsent, hlimit]
  have hids : (history.records ++ [record]).map CellRecord.id =
      (newest limit arrived ++ [record]).map CellRecord.id := by
    rw [List.map_append, List.map_append, ← h.ids, History.ids]
  have hsub : (newest limit (history.records ++ [record])).Sublist (history.records ++ [record]) :=
    newest_sublist limit _
  have hnodup : (history.add record).ids.Nodup := by
    have hall : ((history.records ++ [record]).map CellRecord.id).Nodup := by
      rw [List.map_append, List.map_singleton]
      exact h.nodup.append (List.nodup_singleton _) (List.disjoint_singleton.mpr habsent)
    rw [hadd]
    exact hall.sublist (hsub.map CellRecord.id)
  have hin : record ∈ (history.add record).records := by
    rw [hadd]
    exact mem_newest_concat hpos _ _
  refine ⟨get?_of_mem hnodup hin, hnodup, ?_, ?_, ?_⟩
  · intro count hcount
    rw [hadd, History.size, length_newest, Option.mem_def.mp hcount]
    exact Nat.min_le_left _ _
  · intro other hother
    rw [hadd] at hother
    rw [mem_lastAdds_concat]
    rcases List.mem_append.mp (hsub.subset hother) with hheld | hlast
    · exact Or.inl ⟨h.records other hheld, fun hsame => habsent (hsame ▸ List.mem_map_of_mem hheld)⟩
    · exact Or.inr (List.mem_singleton.mp hlast)
  · rw [hadd]
    exact (map_newest_congr hids).trans
      (congrArg (List.map CellRecord.id) (newest_append limit arrived record))

theorem History.create_eq_ok {limit : Option Int} {fresh : History} (h : History.create limit = .ok fresh) :
    fresh.limit = limit.map Int.toNat ∧ limit.map Int.toNat ≠ some 0 ∧ fresh.records = [] := by
  cases limit with
  | none =>
    obtain rfl := Except.ok.inj h
    exact ⟨rfl, by simp, rfl⟩
  | some count =>
    simp only [create] at h
    split at h
    · cases h
    · obtain rfl := Except.ok.inj h
      refine ⟨rfl, ?_, rfl⟩
      rw [Option.map_some, ne_eq, Option.some.injEq]
      omega

theorem keepsArrivals_addAll {fresh : History} (hlimit : fresh.limit = limit) (hpos : limit ≠ some 0)
    (hfresh : fresh.records = []) (adds : List CellRecord) :
    KeepsArrivals limit adds (fresh.arrivals adds) (fresh.addAll adds) := by
  induction adds using List.reverseRecOn with
  | nil =>
    have hnone : (fresh.addAll []).records = [] := hfresh
    refine ⟨fun last h => ?_, ?_, fun count _ => ?_, fun record h => ?_, ?_⟩
    · cases h
    · rw [History.ids, hnone]
      exact List.nodup_nil
    · rw [History.size, hnone]
      exact Nat.zero_le _
    · rw [hnone] at h
      cases h
    · rw [History.ids, hnone, History.arrivals, newest_nil]
  | append_singleton adds record ih =>
    have hsame : (fresh.addAll adds).limit = limit := (History.limit_addAll fresh adds).trans hlimit
    rw [History.addAll_concat, History.arrivals_concat]
    by_cases hmem : record.id ∈ (fresh.addAll adds).ids
    · rw [if_pos (History.contains_iff.mpr hmem), List.append_nil]
      exact (ih.add_of_mem hsame hmem).2
    · rw [if_neg (mt History.contains_iff.mp hmem)]
      exact ih.add_of_absent hsame hpos hmem

/-! ### Runs that go by the latest adds -/

theorem getLast?_lastAdds (adds : List CellRecord) : (lastAdds adds).getLast? = adds.getLast? := by
  induction adds using List.reverseRecOn with
  | nil => rfl
  | append_singleton adds record _ => rw [lastAdds_concat, List.getLast?_concat, List.getLast?_concat]

theorem KeepsArrivals.keepsNewest (h : KeepsArrivals limit adds arrived history)
    (hlimit : history.limit = limit) (hpos : limit ≠ some 0)
    (horder : history.records = newest limit (lastAdds adds)) : KeepsNewest limit adds history := by
  refine ⟨?_, h.get, h.nodup, fun record => by rw [horder], fun record gone hgone kept hkept => ?_⟩
  · rw [History.latest?, horder, getLast?_newest hpos, getLast?_lastAdds]
  · by_cases hmem : record.id ∈ history.ids
    · -- nothing is dropped
      obtain ⟨front, held, back, hrecords, -, hstore⟩ := History.exists_store_of_mem hmem
      rw [(History.add_of_mem (h.fits hlimit) hrecords hstore).2] at hgone
      cases hgone
    · have hstore : History.store record history.records = history.records ++ [record] :=
        History.store_of_absent hmem
      have hcut : [gone, kept].Sublist (history.records ++ [record]) := by
        rw [History.evicted] at hgone
        rw [History.add] at hkept
        simp only [hstore] at hgone hkept
        have hparts := (List.singleton_sublist.mpr hgone).append (List.singleton_sublist.mpr hkept)
        rwa [List.take_append_drop] at hparts
      have hfilter := (newest_sublist limit (lastAdds adds)).filter (fun held => held.id ≠ record.id)
      rw [← horder, filter_of_absent hmem] at hfilter
      rw [lastAdds_concat]
      exact hcut.trans (hfilter.append_right [record])

/-- If the history goes by the latest adds, then it still does after a new id, and after its latest id. -/
theorem KeepsArrivals.records_add (h : KeepsArrivals limit adds arrived history)
    (hlimit : history.limit = limit) (hpos : limit ≠ some 0)
    (horder : history.records = newest limit (lastAdds adds))
    (hrenewed : record.id ∈ history.ids → history.latest?.map CellRecord.id = some record.id) :
    (history.add record).records = newest limit (lastAdds (adds ++ [record])) := by
  by_cases hmem : record.id ∈ history.ids
  · obtain ⟨last, hlast, hid⟩ := Option.map_eq_some_iff.mp (hrenewed hmem)
    rw [History.latest?, horder, getLast?_newest hpos] at hlast
    obtain ⟨front, hall⟩ := List.getLast?_eq_some_iff.mp hlast
    have hfront : record.id ∉ front.map CellRecord.id := by
      have hnodup := nodup_lastAdds adds
      rw [hall, List.map_append, List.map_singleton, hid, ← List.concat_eq_append,
        List.nodup_concat] at hnodup
      exact hnodup.1
    have hothers : (front ++ [last]).filter (fun held => held.id ≠ record.id) = front := by
      rw [List.filter_append, List.filter_cons_of_neg (by simpa using hid), List.filter_nil,
        List.append_nil, filter_of_absent hfront]
    obtain ⟨gone, -, hnewest⟩ := exists_newest_concat hpos front
    have hrecords : history.records = front.drop gone ++ [last] := by rw [horder, hall, hnewest]
    have hleft : record.id ∉ (front.drop gone).map CellRecord.id := fun h =>
      hfront (((List.drop_sublist gone front).map CellRecord.id).subset h)
    have hstore : History.store record history.records = front.drop gone ++ [record] := by
      rw [hrecords, History.store_last hleft hid]
    rw [(History.add_of_mem (h.fits hlimit) hrecords hstore).1, lastAdds_concat, hall, hothers, hnewest]
  · have habsent : record.id ∉ (newest limit (lastAdds adds)).map CellRecord.id := horder ▸ hmem
    rw [History.add_of_absent hmem, hlimit, lastAdds_concat, ← newest_filter_concat habsent, ← horder]

/-- An add under a held id goes unnoticed by the order unless it is the latest id. -/
theorem KeepsArrivals.latest_of_keepsNewest (h : KeepsArrivals limit adds arrived history)
    (hlimit : history.limit = limit) (hmem : record.id ∈ history.ids)
    (hnewest : KeepsNewest limit (adds ++ [record]) (history.add record)) :
    history.latest?.map CellRecord.id = some record.id := by
  have hids := (h.add_of_mem hlimit hmem).1
  have hlast : (history.add record).records.getLast? = some record :=
    hnewest.latest.trans List.getLast?_concat
  calc history.latest?.map CellRecord.id
    _ = history.ids.getLast? := (List.getLast?_map ..).symm
    _ = (history.add record).ids.getLast? := by rw [hids]
    _ = (history.add record).records.getLast?.map CellRecord.id := List.getLast?_map ..
    _ = some record.id := by rw [hlast]; rfl

end Runs

/-- A history keeps the ids that came in most recently, each with its last record. It goes by the latest
adds at every moment exactly if no add but one under the latest id finds its id held. -/
theorem keepsNewest_iff_renewed {limit : Option Int} {fresh : History}
    (h : History.create limit = .ok fresh) (adds : List CellRecord) :
    KeepsArrivals (limit.map Int.toNat) adds (fresh.arrivals adds) (fresh.addAll adds) ∧
      ((∀ earlier, earlier <+: adds →
          KeepsNewest (limit.map Int.toNat) earlier (fresh.addAll earlier)) ↔
        ∀ earlier record, earlier ++ [record] <+: adds → record.id ∈ (fresh.addAll earlier).ids →
          (fresh.addAll earlier).latest?.map CellRecord.id = some record.id) := by
  obtain ⟨hlimit, hpos, hfresh⟩ := History.create_eq_ok h
  have hkeeps := keepsArrivals_addAll hlimit hpos hfresh
  have hsame : ∀ earlier, (fresh.addAll earlier).limit = limit.map Int.toNat :=
    fun earlier => (History.limit_addAll fresh earlier).trans hlimit
  refine ⟨hkeeps adds, fun hnewest earlier record hstart hmem => ?_, fun hrenewed => ?_⟩
  · have hnext := hnewest _ hstart
    rw [History.addAll_concat] at hnext
    exact (hkeeps earlier).latest_of_keepsNewest (hsame earlier) hmem hnext
  · -- the records stand in the order of their last adds after every start of the run
    have horder : ∀ earlier, earlier <+: adds →
        (fresh.addAll earlier).records = newest (limit.map Int.toNat) (lastAdds earlier) := by
      intro earlier hstart
      induction earlier using List.reverseRecOn with
      | nil => exact hfresh.trans (newest_nil _).symm
      | append_singleton earlier record ih =>
        rw [History.addAll_concat]
        exact (hkeeps earlier).records_add (hsame earlier) hpos
          (ih ((List.prefix_append earlier [record]).trans hstart)) (hrenewed earlier record hstart)
    exact fun earlier hstart => (hkeeps earlier).keepsNewest (hsame earlier) hpos (horder earlier hstart)

def CellRecord.named (id : Int) (name : String) : CellRecord := .ofSource id (some name) (.ofString name)

/-- The latest id is added anew, then two more come in: with room for two, the first one goes. -/
theorem keepsNewest_iff_renewed_applied :
    ∃ fresh, History.create (some 2) = .ok fresh ∧
      (fresh.addAll [.named 1 "a", .named 1 "b", .named 2 "c", .named 3 "d"]).ids = [2, 3] ∧
      KeepsNewest (some 2) [.named 1 "a", .named 1 "b", .named 2 "c", .named 3 "d"]
        (fresh.addAll [.named 1 "a", .named 1 "b", .named 2 "c", .named 3 "d"]) := by
  have hcreate : History.create (some 2) = .ok { limit := some 2 } := rfl
  refine ⟨{ limit := some 2 }, hcreate, rfl, ?_⟩
  refine (keepsNewest_iff_renewed hcreate _).2.mpr ?_ _ (List.prefix_refl _)
  intro earlier record hstart
  rcases earlier with _ | ⟨first, _ | ⟨second, _ | ⟨third, _ | ⟨fourth, rest⟩⟩⟩⟩ <;>
    simp only [List.nil_append, List.cons_append, List.cons_prefix_cons, List.nil_prefix, and_true,
      List.prefix_nil, List.append_eq_nil_iff, List.cons_ne_nil, and_false] at hstart
  · intro hmem
    cases hmem
  · obtain ⟨rfl, rfl⟩ := hstart
    exact fun _ => rfl
  · obtain ⟨rfl, rfl, rfl⟩ := hstart
    exact fun hmem => absurd hmem (by decide)
  · obtain ⟨rfl, rfl, rfl, rfl⟩ := hstart
    exact fun hmem => absurd hmem (by decide)

/-- An id is added anew while another one is the latest. The history takes the other one's record for the
latest, and drops the one that was added anew before it. -/
theorem renewed_not_keepsNewest :
    ∃ fresh, History.create (some 2) = .ok fresh ∧
      (fresh.addAll [.named 1 "a", .named 2 "b", .named 1 "c"]).latest? = some (.named 2 "b") ∧
      ¬ KeepsNewest (some 2) [.named 1 "a", .named 2 "b", .named 1 "c"]
        (fresh.addAll [.named 1 "a", .named 2 "b", .named 1 "c"]) ∧
      (fresh.addAll [.named 1 "a", .named 2 "b", .named 1 "c", .named 3 "d"]).records =
        [.named 2 "b", .named 3 "d"] ∧
      ¬ KeepsNewest (some 2) [.named 1 "a", .named 2 "b", .named 1 "c", .named 3 "d"]
        (fresh.addAll [.named 1 "a", .named 2 "b", .named 1 "c", .named 3 "d"]) := by
  refine ⟨{ limit := some 2 }, rfl, rfl, fun hnewest => ?_, rfl, fun hnewest => ?_⟩
  · have hlatest : some (CellRecord.named 2 "b") = some (CellRecord.named 1 "c") := hnewest.latest
    have hid : (2 : Int) = 1 := congrArg CellRecord.id (Option.some.inj hlatest)
    exact absurd hid (by decide)
  · have hdropped : CellRecord.named 1 "c" ∈ [CellRecord.named 2 "b", CellRecord.named 3 "d"] :=
      (hnewest.records (.named 1 "c")).mpr List.mem_cons_self
    have hid : (1 : Int) ∈ [(2 : Int), 3] := List.mem_map_of_mem (f := CellRecord.id) hdropped
    exact absurd hid (by decide)

end NotebookCell
