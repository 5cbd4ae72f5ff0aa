import NotebookCell.Proofs.Cell.Calls
import NotebookCell.Proofs.Cell.Provenance
import NotebookCell.Proofs.Cell.Store

/-!
# Calls that share a history

Many calls may be at work on one history at a time. Each takes its id in one step and ends in another,
and the steps of different calls come in any order.
-/

namespace NotebookCell

/-- A cell that is to be transpiled, and where its trees come from. -/
structure Call where
  trees : TreeSource
  code : String
  name : Option String

def Call.outcome (call : Call) (id : Nat) : Except PassError CellRecord :=
  (recordOf call.trees id call.code call.name).1

/-- A history, and the calls that have taken an id and not ended. -/
structure Shared where
  history : History
  pending : List (Nat × Call) := []

inductive Event where
  | taken (id : Nat)
  | ended (id : Nat) (outcome : Except PassError CellRecord)

def Event.id? : Event → Option Nat
  | .taken id => some id
  | .ended _ _ => none

def Event.record? : Event → Option CellRecord
  | .taken _ => none
  | .ended _ outcome => outcome.toOption

def handedOut (events : List Event) : List Nat := events.filterMap Event.id?

def added (events : List Event) : List CellRecord := events.filterMap Event.record?

/-- One step of one call: a new call takes an id, or a pending one ends with its outcome. -/
inductive Step : Shared → Event → Shared → Prop where
  | take (shared : Shared) (call : Call) :
    Step shared (.taken shared.history.nextId.1)
      { history := shared.history.nextId.2
        pending := shared.pending ++ [(shared.history.nextId.1, call)] }
  | finish (history : History) (before after : List (Nat × Call)) (id : Nat) (call : Call) :
    Step { history, pending := before ++ (id, call) :: after } (.ended id (call.outcome id))
      { history := history.settle (call.outcome id), pending := before ++ after }

/-- What calls on a fresh history can come to, with the steps that led there. -/
inductive Reached (limit : Option Int) : List Event → Shared → Prop where
  | fresh {history : History} (h : History.create limit = .ok history) : Reached limit [] { history }
  | step {events : List Event} {shared shared' : Shared} {event : Event}
    (reached : Reached limit events shared) (h : Step shared event shared') :
    Reached limit (events ++ [event]) shared'

/-- A call that nothing comes in between of is what `transpileCell` does. -/
theorem steps_of_transpileCell (shared : Shared) (call : Call) :
    ∃ middle, Step shared (.taken shared.history.nextId.1) middle ∧
      Step middle (.ended shared.history.nextId.1
        (transpileCell call.trees shared.history call.code call.name).result)
        { shared with
          history := (transpileCell call.trees shared.history call.code call.name).history } := by
  obtain ⟨hresult, -, hhistory⟩ :=
    transpileCell_steps call.trees shared.history call.code call.name
  refine ⟨_, .take shared call, ?_⟩
  rw [hresult, hhistory]
  have h := Step.finish shared.history.nextId.2 shared.pending [] shared.history.nextId.1 call
  rwa [List.append_nil] at h

/-! ### Bookkeeping -/

section Lists

variable (events : List Event)

@[simp] theorem handedOut_taken (id : Nat) :
    handedOut (events ++ [.taken id]) = handedOut events ++ [id] := by
  simp [handedOut, Event.id?]

@[simp] theorem handedOut_ended (id : Nat) (outcome : Except PassError CellRecord) :
    handedOut (events ++ [.ended id outcome]) = handedOut events := by
  simp [handedOut, Event.id?]

@[simp] theorem added_taken (id : Nat) : added (events ++ [.taken id]) = added events := by
  simp [added, Event.record?]

@[simp] theorem added_ok (id : Nat) (record : CellRecord) :
    added (events ++ [.ended id (.ok record)]) = added events ++ [record] := by
  simp [added, Event.record?, Except.toOption]

@[simp] theorem added_error (id : Nat) (error : PassError) :
    added (events ++ [.ended id (.error error)]) = added events := by
  simp [added, Event.record?, Except.toOption]

end Lists

def addedIds (events : List Event) : List Int := (added events).map CellRecord.id

def Shared.pendingIds (shared : Shared) : List Int := shared.pending.map fun entry => (entry.1 : Int)

/-- Every id that was handed out belongs to one call at most: a record that was added, or a call that
is still pending. -/
structure Accounted (limit : Option Int) (events : List Event) (shared : Shared) : Prop where
  limit_eq : shared.history.limit = limit.map Int.toNat
  positive : shared.history.limit ≠ some 0
  handed : handedOut events = List.range' 1 shared.history.lastId
  content : shared.history.records = newest shared.history.limit (added events)
  nodup : (addedIds events ++ shared.pendingIds).Nodup
  bounded : ∀ id ∈ addedIds events ++ shared.pendingIds, id ≤ shared.history.lastId

namespace Accounted

variable {limit : Option Int} {events : List Event}

theorem fresh {history : History} (h : History.create limit = .ok history) :
    Accounted limit [] { history } := by
  cases limit with
  | none =>
    cases h
    exact ⟨rfl, by simp, rfl, rfl, List.nodup_nil, by simp [addedIds, added, Shared.pendingIds]⟩
  | some count =>
    simp only [History.create] at h
    split at h
    · cases h
    · cases h
      refine ⟨rfl, ?_, rfl, ?_, List.nodup_nil, by simp [addedIds, added, Shared.pendingIds]⟩
      · simp only [ne_eq, Option.some.injEq]
        omega
      · simp [newest, added, List.rtake]

theorem take {shared : Shared} (h : Accounted limit events shared) (call : Call) :
    Accounted limit (events ++ [.taken shared.history.nextId.1])
      { history := shared.history.nextId.2
        pending := shared.pending ++ [(shared.history.nextId.1, call)] } := by
  have hids : addedIds (events ++ [.taken shared.history.nextId.1]) ++
      Shared.pendingIds ⟨shared.history.nextId.2,
        shared.pending ++ [(shared.history.nextId.1, call)]⟩ =
      (addedIds events ++ shared.pendingIds) ++ [((shared.history.lastId + 1 : Nat) : Int)] := by
    simp [addedIds, Shared.pendingIds, History.nextId]
  refine ⟨h.limit_eq, h.positive, ?_, ?_, ?_, ?_⟩
  · rw [handedOut_taken, h.handed, History.lastId_nextId, List.range'_concat]
    simp [History.nextId, Nat.add_comm]
  · rw [added_taken]
    exact h.content
  · rw [hids, List.nodup_append]
    refine ⟨h.nodup, List.nodup_singleton _, ?_⟩
    intro id hid other hother
    have hbound := h.bounded id hid
    rw [List.mem_singleton] at hother
    omega
  · rw [hids]
    intro id hid
    rw [History.lastId_nextId]
    rcases List.mem_append.mp hid with hid | hid
    · have := h.bounded id hid
      omega
    · rw [List.mem_singleton] at hid
      omega

section Finish

variable {history : History} {before after : List (Nat × Call)} {id : Nat} {call : Call}

/-- A pending call's id is held by no record. -/
theorem not_mem_ids (h : Accounted limit events ⟨history, before ++ (id, call) :: after⟩) :
    (id : Int) ∉ history.ids := by
  intro hmem
  have hadded : (id : Int) ∈ addedIds events := by
    rw [History.ids, show history.records = _ from h.content] at hmem
    exact ((newest_sublist _ _).map _).subset hmem
  exact (List.nodup_append.mp h.nodup).2.2 _ hadded _ (by simp [Shared.pendingIds]) rfl

theorem finish_ok (h : Accounted limit events ⟨history, before ++ (id, call) :: after⟩)
    {record : CellRecord} (hrecord : call.outcome id = .ok record) :
    Accounted limit (events ++ [.ended id (.ok record)])
      ⟨history.add record, before ++ after⟩ := by
  have hid : record.id = id := id_of_recordOf hrecord
  have habsent : record.id ∉ history.ids := hid ▸ h.not_mem_ids
  have hadd := History.add_of_absent habsent
  have hperm : (addedIds (events ++ [.ended id (.ok record)]) ++
      Shared.pendingIds ⟨history.add record, before ++ after⟩).Perm
      (addedIds events ++ Shared.pendingIds ⟨history, before ++ (id, call) :: after⟩) := by
    simp only [addedIds, added_ok, Shared.pendingIds, List.map_append, List.map_cons, List.map_nil,
      hid, List.append_assoc, List.singleton_append]
    exact (List.perm_middle.symm).append_left _
  have hlast : (history.add record).lastId = history.lastId := rfl
  refine ⟨?_, ?_, ?_, ?_, ?_, ?_⟩
  · rw [hadd]
    exact h.limit_eq
  · rw [hadd]
    exact h.positive
  · rw [handedOut_ended]
    exact h.handed
  · rw [added_ok, hadd, show history.records = _ from h.content]
    exact newest_append _ _ _
  · exact hperm.nodup_iff.mpr h.nodup
  · intro other hother
    exact h.bounded other (hperm.mem_iff.mp hother)

theorem finish_error (h : Accounted limit events ⟨history, before ++ (id, call) :: after⟩)
    (error : PassError) :
    Accounted limit (events ++ [.ended id (.error error)]) ⟨history, before ++ after⟩ := by
  have hsub : (addedIds (events ++ [.ended id (.error error)]) ++
      Shared.pendingIds ⟨history, before ++ after⟩).Sublist
      (addedIds events ++ Shared.pendingIds ⟨history, before ++ (id, call) :: after⟩) := by
    simp only [addedIds, added_error, Shared.pendingIds]
    exact ((List.sublist_cons_self _ _).append_left before |>.map _).append_left _
  refine ⟨h.limit_eq, h.positive, ?_, ?_, h.nodup.sublist hsub, ?_⟩
  · rw [handedOut_ended]
    exact h.handed
  · rw [added_error]
    exact h.content
  · intro other hother
    exact h.bounded other (hsub.subset hother)

end Finish

theorem step {shared shared' : Shared} {event : Event} (h : Accounted limit events shared)
    (hstep : Step shared event shared') : Accounted limit (events ++ [event]) shared' := by
  cases hstep with
  | take _ call => exact h.take call
  | finish history before after id call =>
    cases houtcome : call.outcome id with
    | ok record => exact h.finish_ok houtcome
    | error error => exact h.finish_error error

theorem of_reached {shared : Shared} (h : Reached limit events shared) :
    Accounted limit events shared := by
  induction h with
  | fresh h => exact fresh h
  | step _ hstep ih => exact ih.step hstep

theorem ids_nodup {shared : Shared} (h : Accounted limit events shared) :
    shared.history.ids.Nodup := by
  rw [History.ids, h.content]
  exact (h.nodup.sublist (List.sublist_append_left _ _)).sublist ((newest_sublist _ _).map _)

end Accounted

/-! ### What holds at every moment -/

/-- A history that calls share, after `events`: which ids were handed out, what is stored, how it can
be looked up, and what the next step can do to it. -/
structure Safe (limit : Option Int) (events : List Event) (shared : Shared) : Prop where
  ids_in_row : handedOut events = List.range' 1 (handedOut events).length
  last_id : shared.history.lastId = (handedOut events).length
  ids_apart : (addedIds events).Nodup
  content : shared.history.records = newest (limit.map Int.toNat) (added events)
  size : shared.history.size = limit.elim (added events).length (min ·.toNat (added events).length)
  ids : shared.history.ids = shared.history.records.map CellRecord.id
  get : ∀ id record, shared.history.get? id = some record ↔
    record ∈ shared.history.records ∧ record.id = id
  item : ∀ id record, shared.history.item id = .ok record ↔
    record ∈ shared.history.records ∧ record.id = id
  item_absent : ∀ id, shared.history.item id = .error (.noRecord id) ↔ id ∉ shared.history.ids
  contains : ∀ id, shared.history.contains id = true ↔ id ∈ shared.history.ids
  latest : shared.history.latest? = (added events).getLast?
  take : ∀ id next, Step shared (.taken id) next →
    id = shared.history.lastId + 1 ∧ next.history = { shared.history with lastId := id }
  store : ∀ id record next, Step shared (.ended id (.ok record)) next →
    record.id = id ∧ record.id ∉ addedIds events ∧ shared.history.contains record.id = false
  fail : ∀ id error next, Step shared (.ended id (.error error)) next →
    next.history = shared.history

theorem Accounted.store {limit : Option Int} {events : List Event} {shared next : Shared} {id : Nat}
    {record : CellRecord} (h : Accounted limit events shared)
    (hstep : Step shared (.ended id (.ok record)) next) :
    record.id = id ∧ record.id ∉ addedIds events ∧ shared.history.contains record.id = false := by
  generalize houtcome : Except.ok record = outcome at hstep
  cases hstep with
  | finish history before after id call =>
    have hid : record.id = id := id_of_recordOf houtcome.symm
    refine ⟨hid, ?_, ?_⟩
    · intro hmem
      exact (List.nodup_append.mp h.nodup).2.2 _ hmem _ (by simp [Shared.pendingIds]) hid
    · rw [Bool.eq_false_iff, ne_eq, History.contains_iff, hid]
      exact h.not_mem_ids

theorem reached_safe {limit : Option Int} {events : List Event} {shared : Shared}
    (h : Reached limit events shared) : Safe limit events shared := by
  have hinv := Accounted.of_reached h
  have hlast : shared.history.lastId = (handedOut events).length := by
    rw [hinv.handed, List.length_range']
  exact
    { ids_in_row := by rw [← hlast]; exact hinv.handed
      last_id := hlast
      ids_apart := hinv.nodup.sublist (List.sublist_append_left _ _)
      content := by rw [← hinv.limit_eq]; exact hinv.content
      size := by
        rw [History.size, hinv.content, length_newest, hinv.limit_eq]
        cases limit <;> rfl
      ids := rfl
      get := fun _ _ => History.get?_eq_some hinv.ids_nodup
      item := fun _ _ => History.item_eq_ok.trans (History.get?_eq_some hinv.ids_nodup)
      item_absent := fun _ => History.item_eq_error
      contains := fun _ => History.contains_iff
      latest := by rw [History.latest?, hinv.content, getLast?_newest hinv.positive]
      take := by
        intro id next hstep
        cases hstep
        exact ⟨rfl, rfl⟩
      store := fun _ _ _ => hinv.store
      fail := by
        intro id error next hstep
        generalize houtcome : Except.error error = outcome at hstep
        cases hstep
        rw [← houtcome]
        rfl }

def singleNameCall : Call := ⟨singleName, "a", none⟩

def brokenCall : Call := ⟨{ grammar := fun _ => .leaf "program" 0 0 }, "a", none⟩

/-- Three calls with room for one record: the second fails, and the third ends before the first. -/
theorem reached_safe_applied :
    ∃ events shared, Reached (some 1) events shared ∧ handedOut events = [1, 2, 3] ∧
      addedIds events = [3, 1] ∧ shared.history.ids = [1] ∧ Safe (some 1) events shared := by
  have start : Reached (some 1) [] { history := { limit := some 1 } } := .fresh rfl
  have taken := ((start.step (.take _ singleNameCall)).step (.take _ brokenCall)).step
    (.take _ singleNameCall)
  have failed := taken.step (.finish _ [(1, singleNameCall)] [(3, singleNameCall)] 2 brokenCall)
  have later := failed.step (.finish _ [(1, singleNameCall)] [] 3 singleNameCall)
  have done := later.step (.finish _ [] [] 1 singleNameCall)
  exact ⟨_, _, done, rfl, rfl, rfl, reached_safe done⟩

end NotebookCell
