import NotebookCell.Proofs.Pass.Runs

/-!
# Plans that mirror each other

Two plans mirror each other if from every state they plan the same edits, set the same flag, and end
alike: with the same error, or with related values. All edits that they add have the property `P`.
-/

namespace NotebookCell.Planner

variable {α β γ δ : Type} {P : Edit → Prop}

/-- The same error, or related values. -/
def EndAlike (R : α → β → Prop) : Except PassError α → Except PassError β → Prop
  | .ok a, .ok b => R a b
  | .error e, .error e' => e = e'
  | _, _ => False

/-- The plans cannot be told apart by their edits, the flag, or how they end. -/
def Mirrors (P : Edit → Prop) (R : α → β → Prop) (plan : Planner α) (other : Planner β) : Prop :=
  ∀ state : PlanState, (∀ edit ∈ state.edits, P edit) →
    (plan.run.run state).2 = (other.run.run state).2 ∧
      (∀ edit ∈ (plan.run.run state).2.edits, P edit) ∧
      EndAlike R (plan.run.run state).1 (other.run.run state).1

variable {R : α → β → Prop} {S : γ → δ → Prop}

theorem mirrors_pure {a : α} {b : β} (h : R a b) : Mirrors P R (pure a) (pure b) :=
  fun _ hstate => ⟨rfl, hstate, h⟩

theorem mirrors_throw (e : PassError) : Mirrors P R (throw e) (throw e) :=
  fun _ hstate => ⟨rfl, hstate, rfl⟩

theorem Mirrors.bind {plan : Planner α} {other : Planner β} {next : α → Planner γ}
    {next' : β → Planner δ} (h : Mirrors P R plan other)
    (h' : ∀ a b, R a b → Mirrors P S (next a) (next' b)) :
    Mirrors P S (plan >>= next) (other >>= next') := by
  intro state hstate
  obtain ⟨hsame, hplanned, hend⟩ := h state hstate
  simp only [ExceptT.run_bind, StateT.run_bind]
  cases hrun : plan.run.run state with
  | mk outcome after =>
    cases hrun' : other.run.run state with
    | mk outcome' after' =>
      rw [hrun] at hsame hplanned hend
      rw [hrun'] at hsame hend
      cases hsame
      cases outcome with
      | ok a =>
        cases outcome' with
        | ok b => exact h' a b hend after hplanned
        | error e' => exact hend.elim
      | error e =>
        cases outcome' with
        | ok b => exact hend.elim
        | error e' => exact ⟨rfl, hplanned, hend⟩

/-- The second step does not ask what the first one gave. -/
theorem Mirrors.seq {plan other : Planner Unit} {next : Planner γ} {next' : Planner δ}
    (h : Mirrors P Eq plan other) (h' : Mirrors P S next next') :
    Mirrors P S (do plan; next) (do other; next') :=
  h.bind fun _ _ _ => h'

theorem Mirrors.ite {plan next : Planner α} {other next' : Planner β} {p q : Prop} [Decidable p]
    [Decidable q] (hpq : p ↔ q) (h : p → Mirrors P R plan other) (h' : ¬p → Mirrors P R next next') :
    Mirrors P R (if p then plan else next) (if q then other else next') := by
  by_cases hp : p
  · rw [if_pos hp, if_pos (hpq.mp hp)]
    exact h hp
  · rw [if_neg hp, if_neg fun hq => hp (hpq.mpr hq)]
    exact h' hp

theorem Emits.mirrors {plan : Planner α} (h : Emits P plan) : Mirrors P Eq plan plan := by
  intro state hstate
  refine ⟨rfl, h state hstate, ?_⟩
  cases (plan.run.run state).1 with
  | ok a => rfl
  | error e => rfl

theorem mirrors_emit {edit : Edit} (h : P edit) : Mirrors P Eq (emit edit) (emit edit) :=
  (emits_emit h).mirrors

theorem mirrors_qualifying : Mirrors P Eq qualifying qualifying := emits_qualifying.mirrors

theorem mirrors_setQualifying (flag : Bool) :
    Mirrors P Eq (setQualifying flag) (setQualifying flag) := (emits_setQualifying flag).mirrors

theorem Mirrors.unqualified {walk walk' : Planner Unit} (h : Mirrors P Eq walk walk') :
    Mirrors P Eq (unqualified walk) (unqualified walk') := by
  refine mirrors_qualifying.bind fun flag _ hflag => ?_
  cases hflag
  exact (mirrors_setQualifying false).seq (h.seq (mirrors_setQualifying flag))

theorem Mirrors.forM {step : α → Planner Unit} {step' : β → Planner Unit} {items : List α}
    {image : α → β} (h : ∀ item ∈ items, Mirrors P Eq (step item) (step' (image item))) :
    Mirrors P Eq (items.forM step) ((items.map image).forM step') := by
  induction items with
  | nil => exact mirrors_pure rfl
  | cons item items ih =>
    exact (h item List.mem_cons_self).seq (ih fun i hi => h i (List.mem_cons_of_mem item hi))

/-! ### Questions about a tree -/

theorem mirrors_ask {question : Except TreeError α} {question' : Except TreeError β} {a : α} {b : β}
    (h : question = .ok a) (h' : question' = .ok b) (hR : R a b) :
    Mirrors P R (ask question) (ask question') := by
  rw [h, h']
  exact mirrors_pure hR

theorem mirrors_ask_map {question : Except TreeError α} {image : α → β}
    (h : ∀ a, question = .ok a → R a (image a)) :
    Mirrors P R (ask question) (ask (question.map image)) := by
  cases question with
  | ok a => exact mirrors_pure (h a rfl)
  | error e => exact mirrors_throw _

theorem mirrors_insert {question question' : Except TreeError Nat} {place : Nat}
    (h : question = .ok place) (h' : question' = .ok place) {edit : Nat → Edit} (hP : P (edit place)) :
    Mirrors P Eq (do emit (edit (← ask question))) (do emit (edit (← ask question'))) := by
  rw [h, h']
  exact mirrors_emit hP

theorem mirrors_between {start stop start' stop' : Except TreeError Nat} {lo hi : Nat}
    (hstart : start = .ok lo) (hstart' : start' = .ok lo) (hstop : stop = .ok hi)
    (hstop' : stop' = .ok hi) {text : List Char} (hP : P (.replace lo hi (.plain text))) :
    Mirrors P Eq (do between (← ask start) (← ask stop) text)
      (do between (← ask start') (← ask stop') text) := by
  rw [hstart, hstart', hstop, hstop']
  exact (emits_emit hP).mirrors

theorem Mirrors.replace_then {start stop start' stop' : Except TreeError Nat} {lo hi : Nat}
    (hstart : start = .ok lo) (hstart' : start' = .ok lo) (hstop : stop = .ok hi)
    (hstop' : stop' = .ok hi) {text : List Char} (hP : P (.replace lo hi (.plain text)))
    {next : Planner γ} {next' : Planner δ} (h : Mirrors P S next next') :
    Mirrors P S (do between (← ask start) (← ask stop) text; next)
      (do between (← ask start') (← ask stop') text; next') := by
  rw [hstart, hstart', hstop, hstop']
  exact (mirrors_emit hP).seq h

end NotebookCell.Planner
