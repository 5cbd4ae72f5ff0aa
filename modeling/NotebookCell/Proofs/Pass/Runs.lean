import NotebookCell.Pass.Imports
import NotebookCell.Pass.Scope
import NotebookCell.Proofs.Syntax.Nodes

/-!
# Runs of planners

A planner's steps only ever add edits behind those planned before. `Runs` says which edits a step
adds when it ends well, what it gives, and how it leaves the flag; the laws below put runs of steps
together. `Emits` is the weaker statement that all edits have a property, and needs no good end.
-/

namespace NotebookCell.Planner

variable {α β : Type}

/-- Started with the flag at `flag`, the plan ends with the value `a` and the flag at `flag'`, and
`edits` are planned on the way. -/
def Runs (plan : Planner α) (flag : Bool) (a : α) (edits : List Edit) (flag' : Bool) : Prop :=
  ∀ before, plan.run.run { edits := before, qualifying := flag } =
    (.ok a, { edits := before ++ edits, qualifying := flag' })

/-- The plan ends well with these edits planned, and leaves the flag as it was. -/
def Plans (plan : Planner Unit) (flag : Bool) (edits : List Edit) : Prop :=
  plan.Runs flag () edits flag

theorem runs_pure (a : α) (flag : Bool) : (pure a : Planner α).Runs flag a [] flag := by
  intro before
  simp only [List.append_nil]
  rfl

theorem Runs.bind {plan : Planner α} {next : α → Planner β} {f f' f'' : Bool} {a : α} {b : β}
    {edits edits' : List Edit} (h : plan.Runs f a edits f') (h' : (next a).Runs f' b edits' f'') :
    (plan >>= next).Runs f b (edits ++ edits') f'' := by
  intro before
  have h1 := h before
  have h2 := h' (before ++ edits)
  simp only [ExceptT.run_bind, StateT.run_bind]
  rw [h1, ← List.append_assoc]
  exact h2

theorem Plans.seq {plan : Planner Unit} {next : Planner β} {f f'' : Bool} {b : β}
    {edits edits' : List Edit} (h : plan.Plans f edits) (h' : next.Runs f b edits' f'') :
    (do plan; next).Runs f b (edits ++ edits') f'' :=
  Runs.bind h h'

theorem runs_emit (edit : Edit) (flag : Bool) : (emit edit).Plans flag [edit] := by
  intro before
  rfl

theorem runs_qualifying (flag : Bool) : qualifying.Runs flag flag [] flag := by
  intro before
  simp only [List.append_nil]
  rfl

theorem runs_setQualifying (flag flag' : Bool) : (setQualifying flag').Runs flag () [] flag' := by
  intro before
  simp only [List.append_nil]
  rfl

theorem runs_ask {question : Except TreeError α} {a : α} (h : question = .ok a) (flag : Bool) :
    (ask question).Runs flag a [] flag := by
  rw [h]
  exact runs_pure a flag

theorem runs_need {node child : SyntaxTree} {field : String} (h : node.child? field = some child)
    (flag : Bool) : (need node field).Runs flag child [] flag := by
  simp only [need, h]
  exact runs_pure child flag

theorem runs_before {doc : Document} {node : SyntaxTree} (h : doc.Covers node) (text : List Char)
    (flag : Bool) :
    (before doc node text).Plans flag [.insertBefore (doc.first node) (.plain text)] :=
  Runs.bind (runs_ask h.start_eq flag) (runs_emit _ flag)

theorem runs_after {doc : Document} {node : SyntaxTree} (h : doc.Covers node) (text : List Char)
    (flag : Bool) :
    (after doc node text).Plans flag [.insertAfter (doc.past node) (.plain text)] :=
  Runs.bind (runs_ask h.stop_eq flag) (runs_emit _ flag)

theorem runs_between (start stop : Nat) (text : List Char) (flag : Bool) :
    (between start stop text).Plans flag [.replace start stop (.plain text)] :=
  runs_emit _ flag

/-- A text in place of a range whose ends are read off the tree. -/
theorem runs_replace {start stop : Except TreeError Nat} {lo hi : Nat} (hlo : start = .ok lo)
    (hhi : stop = .ok hi) (text : List Char) (flag : Bool) :
    (do between (← ask start) (← ask stop) text).Plans flag [.replace lo hi (.plain text)] :=
  Runs.bind (runs_ask hlo flag) (Runs.bind (runs_ask hhi flag) (runs_between lo hi text flag))

theorem Runs.replace_then {start stop : Except TreeError Nat} {lo hi : Nat} (hlo : start = .ok lo)
    (hhi : stop = .ok hi) (text : List Char) {flag f'' : Bool} {next : Planner β} {b : β}
    {edits : List Edit} (h : next.Runs flag b edits f'') :
    (do between (← ask start) (← ask stop) text; next).Runs flag b
      (.replace lo hi (.plain text) :: edits) f'' :=
  Runs.bind (runs_ask hlo flag)
    (Runs.bind (runs_ask hhi flag) (Plans.seq (runs_between lo hi text flag) h))

theorem runs_forM {step : α → Planner Unit} {edits : α → List Edit} {flag : Bool} {items : List α}
    (h : ∀ item ∈ items, (step item).Plans flag (edits item)) :
    (items.forM step).Plans flag (items.flatMap edits) := by
  induction items with
  | nil => exact runs_pure () flag
  | cons item items ih =>
    have hhead := h item (List.mem_cons_self ..)
    have htail := ih fun i hi => h i (List.mem_cons_of_mem _ hi)
    rw [List.flatMap_cons]
    exact Runs.bind hhead htail

/-- A part that is walked with the flag off adds its edits, and the flag is set back after it. -/
theorem Plans.unqualified {walk : Planner Unit} {edits : List Edit} (h : walk.Plans false edits)
    (flag : Bool) : (unqualified walk).Plans flag edits := by
  have hback : Runs (do walk; setQualifying flag) false () (edits ++ []) flag :=
    Plans.seq h (runs_setQualifying false flag)
  have hon : Runs (do setQualifying false; walk; setQualifying flag) flag () ([] ++ (edits ++ [])) flag :=
    Runs.bind (runs_setQualifying flag false) hback
  have hrun : (NotebookCell.unqualified walk).Runs flag () ([] ++ ([] ++ (edits ++ []))) flag :=
    Runs.bind (runs_qualifying flag) hon
  rw [List.append_nil, List.nil_append, List.nil_append] at hrun
  exact hrun

/-! ### Walks into children -/

theorem walkAll_map (trees : List SyntaxTree) (walk : SyntaxTree → Planner Unit) :
    walkAll (trees.map fun tree => (tree, walk tree)) =
      (trees.filter SyntaxTree.isConstruct).forM walk := by
  simp only [walkAll]
  induction trees with
  | nil => rfl
  | cons tree trees ih =>
    by_cases hc : tree.isConstruct = true
    · simp only [List.map_cons, List.filter_cons, hc, if_true]
      exact congrArg (fun rest => do walk tree; rest) ih
    · simp only [List.map_cons, List.filter_cons, hc, if_false, ih, Bool.false_eq_true]

theorem walkField_map (info : NodeInfo) (trees : List SyntaxTree)
    (walk : SyntaxTree → Planner Unit) (field : String) {child : SyntaxTree}
    (h : (SyntaxTree.node info trees).child? field = some child) :
    walkField (.node info trees) (trees.map fun tree => (tree, walk tree)) field = walk child := by
  have hfind : (trees.map fun tree => (tree, walk tree)).find?
      (fun child => child.1.isField field) = some (child, walk child) := by
    rw [List.find?_map]
    have h' : trees.find? (SyntaxTree.isField field) = some child := h
    simp only [Function.comp_def, h', Option.map_some]
  simp only [walkField, hfind]

/-! ### Edits with a property -/

/-- All edits that a plan adds have the property `P`, however the plan ends. -/
def Emits (P : Edit → Prop) (plan : Planner α) : Prop :=
  ∀ state : PlanState, (∀ edit ∈ state.edits, P edit) →
    ∀ edit ∈ (plan.run.run state).2.edits, P edit

variable {P : Edit → Prop}

theorem emits_pure (a : α) : Emits P (pure a : Planner α) := fun _ h => h

theorem emits_throw (e : PassError) : Emits P (throw e : Planner α) := fun _ h => h

theorem emits_qualifying : Emits P qualifying := fun _ h => h

theorem emits_setQualifying (flag : Bool) : Emits P (setQualifying flag) := fun _ h => h

theorem emits_ask (question : Except TreeError α) : Emits P (ask question) := by
  cases question with
  | ok a => exact emits_pure a
  | error e => exact emits_throw _

theorem emits_need (node : SyntaxTree) (field : String) : Emits P (need node field) := by
  unfold need
  split
  · exact emits_pure _
  · exact emits_throw _

theorem emits_emit {edit : Edit} (h : P edit) : Emits P (emit edit) := by
  intro state hstate e he
  have he' : e ∈ state.edits ++ [edit] := he
  rcases List.mem_append.mp he' with he' | he'
  · exact hstate e he'
  · rw [List.mem_singleton.mp he']
    exact h

theorem Emits.bind {plan : Planner α} {next : α → Planner β} (h : Emits P plan)
    (h' : ∀ a, Emits P (next a)) : Emits P (plan >>= next) := by
  intro state hstate
  have h1 := h state hstate
  simp only [ExceptT.run_bind, StateT.run_bind]
  cases hrun : plan.run.run state with
  | mk outcome state' =>
    rw [hrun] at h1
    cases outcome with
    | ok a => exact h' a state' h1
    | error e => exact h1

theorem Emits.map {plan : Planner α} (h : Emits P plan) (f : α → β) : Emits P (f <$> plan) := by
  have heq : f <$> plan = plan >>= fun a => pure (f a) := (bind_pure_comp f plan).symm
  rw [heq]
  exact h.bind fun a => emits_pure (f a)

theorem Emits.ite {p : Prop} [Decidable p] {a b : Planner α} (ha : Emits P a)
    (hb : Emits P b) : Emits P (if p then a else b) := by
  split
  · exact ha
  · exact hb

theorem Emits.forM {step : α → Planner Unit} {items : List α}
    (h : ∀ item ∈ items, Emits P (step item)) : Emits P (items.forM step) := by
  induction items with
  | nil => exact emits_pure ()
  | cons item items ih =>
    have hrest := ih fun i hi => h i (List.mem_cons_of_mem _ hi)
    exact (h item (List.mem_cons_self ..)).bind fun _ => hrest

end NotebookCell.Planner
