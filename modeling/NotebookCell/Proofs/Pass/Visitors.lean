import NotebookCell.Pass.Imports
import NotebookCell.Pass.Scope
import NotebookCell.Syntax.Walk

/-!
# The visitors of the passes

Each pass is a table of visitors. A visitor's program is made of steps of a plan and of walks into
nodes, and does what a plan does if it plans the same edits and ends in the same way. Only behind a
failure may the flag be another one, since a visitor that switches it off switches it back whatever
happens.
-/

namespace NotebookCell

abbrev PassVisit := Walk.Visit SyntaxTree Unit PlanState PassError

abbrev PassWalk := SyntaxTree → Unit → PlanState → Walk.Result PlanState PassError

def constructTree : Walk.Tree SyntaxTree where
  kind := SyntaxTree.kind
  children := SyntaxTree.constructs

namespace Walk.Visit

section

variable {Node State Memory Failure : Type}

/-- Two programs, the second once the first has ended well. -/
def seq : Visit Node State Memory Failure → Visit Node State Memory Failure →
    Visit Node State Memory Failure
  | .done, second => second
  | .fail failure, _ => .fail failure
  | .load next, second => .load fun memory => (next memory).seq second
  | .store memory next, second => .store memory (next.seq second)
  | .call node state next, second => .call node state fun failure => (next failure).seq second

/-- The program, and a change of the memory however it ends. -/
def ensuring (restore : Memory → Memory) :
    Visit Node State Memory Failure → Visit Node State Memory Failure
  | .done => .load fun memory => .store (restore memory) .done
  | .fail failure => .load fun memory => .store (restore memory) (.fail failure)
  | .load next => .load fun memory => (next memory).ensuring restore
  | .store memory next => .store memory (next.ensuring restore)
  | .call node state next => .call node state fun failure => (next failure).ensuring restore

variable (walk : Node → State → Memory → Result Memory Failure)

theorem run_seq (first second : Visit Node State Memory Failure) (memory : Memory) :
    (first.seq second).run walk memory =
      match (first.run walk memory).failure with
      | none => second.run walk (first.run walk memory).memory
      | some failure => ⟨(first.run walk memory).memory, some failure⟩ := by
  induction first generalizing memory with
  | done => rfl
  | fail failure => rfl
  | load next ih => exact ih memory memory
  | store held next ih => exact ih held
  | call node state next ih =>
    exact ih (walk node state memory).failure (walk node state memory).memory

theorem run_ensuring (restore : Memory → Memory) (visit : Visit Node State Memory Failure)
    (memory : Memory) :
    (visit.ensuring restore).run walk memory =
      ⟨restore (visit.run walk memory).memory, (visit.run walk memory).failure⟩ := by
  induction visit generalizing memory with
  | done => rfl
  | fail failure => rfl
  | load next ih => exact ih memory memory
  | store held next ih => exact ih held
  | call node state next ih =>
    exact ih (walk node state memory).failure (walk node state memory).memory

end

/-- Steps of a plan that do not walk, and what follows them. -/
def plan {α : Type} (steps : Planner α) (next : α → PassVisit) : PassVisit :=
  .load fun state =>
    match steps.run.run state with
    | (.ok a, after) => .store after (next a)
    | (.error error, after) => .store after (.fail error)

def steps (plan : Planner Unit) : PassVisit := .plan plan fun _ => .done

def into (node : SyntaxTree) : PassVisit := .call node () .ending

/-- The program with the flag off, which is set back however the program ends. -/
def untranslated (visit : PassVisit) : PassVisit :=
  .load fun state => .store { state with qualifying := false }
    (visit.ensuring fun after => { after with qualifying := state.qualifying })

end Walk.Visit

open Walk (Visit Visitors noop)
open Planner

/-! ### The tables -/

def importVisitors (doc : Document) : Visitors (SyntaxTree → Unit → PassVisit) := fun kind =>
  if kind == "import_statement" then some fun node state =>
    (Visit.steps (planImportStatement doc node)).seq (constructTree.baseVisit node state)
  else if kind == "import_clause" then some fun node state =>
    (Visit.steps (planDefaultBindings doc node)).seq (constructTree.baseVisit node state)
  else if kind == "import_specifier" then some fun node _ => .steps (planNamedBinding doc node)
  else if kind == "namespace_import" then some fun node _ => .steps (planNamespaceBinding doc node)
  else if functionDeclarationKinds.contains kind || scopeKinds.contains kind then some noop
  else none

/-- The node at the end of the path is a child of the body. -/
def standsAtTop (body : SyntaxTree) (path : List SyntaxTree) : Bool :=
  path.dropLast.getLast?.any fun parent => parent.sameNode body

namespace ScopeVisitors

variable (doc : Document)

def classDeclaration (body node : SyntaxTree) (path : List SyntaxTree) : PassVisit :=
  (constructTree.baseVisit node ()).seq
    (.steps do if standsAtTop body path then planNamed doc node)

def declaration (body node : SyntaxTree) (path : List SyntaxTree) : PassVisit :=
  .plan (declarationKind doc node) fun kind =>
    let qualify := kind == "var".toList || standsAtTop body path
    .plan (setQualifying qualify) fun _ =>
      (constructTree.baseVisit node ()).seq
        (.steps do setQualifying false; if qualify then planDeclaration doc node)

def declarator (node : SyntaxTree) : PassVisit :=
  .plan (need node "name") fun name =>
    (Visit.into name).seq <|
      Visit.seq (match node.child? "value" with
        | some value => (Visit.into value).untranslated
        | none => .done) <|
      .steps do if (← qualifying) && name.kind == "identifier" then before doc name namespaceDot

def pattern (node : SyntaxTree) (plan : SyntaxTree → Planner Unit) : PassVisit :=
  (constructTree.baseVisit node ()).seq
    (.steps do if ← qualifying then node.constructs.forM plan)

def defaulted (node : SyntaxTree) : PassVisit :=
  (Visit.plan (need node "left") .into).seq (Visit.plan (need node "right") .into).untranslated

def forIn (node : SyntaxTree) : PassVisit :=
  .plan (declaresVar doc node) fun
    | true =>
      .plan (need node "kind") fun kind => .plan (ask (doc.start kind)) fun start =>
      .plan (need node "left") fun left => .plan (ask (doc.start left)) fun stop =>
      .plan (between start stop []) fun _ => .plan (setQualifying true) fun _ =>
      (Visit.into left).seq <|
      .plan (if left.kind == "identifier" then before doc left namespaceDot else pure ()) fun _ =>
      .plan (setQualifying false) fun _ =>
      .each () .ending (node.constructs.filter fun child => !child.sameNode left)
    | false => constructTree.baseVisit node ()

end ScopeVisitors

open ScopeVisitors in
def scopeVisitors (doc : Document) (body : SyntaxTree) :
    Visitors (SyntaxTree → Unit → List SyntaxTree → PassVisit) := fun kind =>
  if kind == "class_declaration" then some fun node _ => classDeclaration doc body node
  else if functionDeclarationKinds.contains kind then some fun node _ _ => .steps (planNamed doc node)
  else if kind == "lexical_declaration" || kind == "variable_declaration" then
    some fun node _ => declaration doc body node
  else if kind == "variable_declarator" then some fun node _ _ => declarator doc node
  else if kind == "object_pattern" then some fun node _ _ => pattern node (planProperty doc)
  else if kind == "array_pattern" then some fun node _ _ => pattern node (planQualified doc)
  else if kind == "assignment_pattern" || kind == "object_assignment_pattern" then
    some fun node _ _ => defaulted node
  else if kind == "for_in_statement" then some fun node _ _ => forIn doc node
  else if scopeKinds.contains kind then some fun node state _ => noop node state
  else none

/-! ### Programs that do what plans do -/

/-- The same edits and the same end, and after a good end also the same flag. -/
def Agrees (result : Walk.Result PlanState PassError) : Except PassError Unit × PlanState → Prop
  | (.ok _, state) => result.failure = none ∧ result.memory = state
  | (.error error, state) => result.failure = some error ∧ result.memory.edits = state.edits

/-- With these walks into nodes, the program does what the plan does. -/
def Carries (walk : PassWalk) (visit : PassVisit) (plan : Planner Unit) : Prop :=
  ∀ state, Agrees (visit.run walk state) (plan.run.run state)

section Programs

variable {walk : PassWalk} {visit second : PassVisit} {plan next : Planner Unit} {node : SyntaxTree}

theorem carries_done : Carries walk .done (pure ()) := fun _ => ⟨rfl, rfl⟩

theorem carries_plan {α : Type} {steps : Planner α} {follow : α → PassVisit} {rest : α → Planner Unit}
    (h : ∀ a, Carries walk (follow a) (rest a)) : Carries walk (.plan steps follow) (steps >>= rest) := by
  intro state
  simp only [ExceptT.run_bind, StateT.run_bind]
  unfold Visit.plan
  rw [Visit.run]
  rcases steps.run.run state with ⟨error | a, after⟩
  · exact ⟨rfl, rfl⟩
  · exact h a after

theorem carries_pure {α : Type} {a : α} {follow : α → PassVisit} (h : Carries walk (follow a) plan) :
    Carries walk (.plan (pure a) follow) plan := h

theorem carries_steps (plan : Planner Unit) : Carries walk (.steps plan) plan := by
  have h : Carries walk (.steps plan) (plan >>= fun _ => pure ()) := carries_plan fun _ => carries_done
  rwa [bind_pure] at h

theorem carries_need {field : String} {follow : SyntaxTree → PassVisit}
    {rest : SyntaxTree → Planner Unit}
    (h : ∀ child, node.child? field = some child → Carries walk (follow child) (rest child)) :
    Carries walk (.plan (need node field) follow) (need node field >>= rest) := by
  unfold need
  cases hchild : node.child? field with
  | some child => exact h child hchild
  | none => exact fun _ => ⟨rfl, rfl⟩

theorem Carries.seq (h : Carries walk visit plan) (h' : Carries walk second next) :
    Carries walk (visit.seq second) (do plan; next) := by
  intro state
  have hfirst := h state
  simp only [ExceptT.run_bind, StateT.run_bind]
  rw [Visit.run_seq]
  cases hplan : plan.run.run state with
  | mk outcome after =>
    rw [hplan] at hfirst
    cases outcome with
    | error error =>
      obtain ⟨hfailure, hedits⟩ := hfirst
      rw [hfailure]
      exact ⟨rfl, hedits⟩
    | ok a =>
      obtain ⟨hend, hmemory⟩ := hfirst
      rw [hend, hmemory]
      exact h' after

theorem Carries.untranslated (h : Carries walk visit plan) :
    Carries walk visit.untranslated (unqualified plan) := by
  intro state
  have hinside := h { state with qualifying := false }
  have hrun : (unqualified plan).run.run state =
      (do plan; setQualifying state.qualifying).run.run { state with qualifying := false } := rfl
  rw [hrun]
  simp only [ExceptT.run_bind, StateT.run_bind]
  unfold Visit.untranslated
  rw [Visit.run, Visit.run, Visit.run_ensuring]
  cases hplan : plan.run.run { state with qualifying := false } with
  | mk outcome after =>
    rw [hplan] at hinside
    cases outcome with
    | error error => exact hinside
    | ok a =>
      obtain ⟨hend, hmemory⟩ := hinside
      exact ⟨hend, congrArg (fun held : PlanState => { held with qualifying := state.qualifying }) hmemory⟩

/-- The walk into a node does what a plan does. -/
abbrev Enters (walk : PassWalk) (node : SyntaxTree) (plan : Planner Unit) : Prop :=
  ∀ state, Agrees (walk node () state) (plan.run.run state)

theorem carries_into (h : Enters walk node plan) : Carries walk (.into node) plan := by
  intro state
  have hwalk := h state
  unfold Visit.into
  rw [Visit.run]
  cases hplan : plan.run.run state with
  | mk outcome after =>
    rw [hplan] at hwalk
    cases outcome with
    | error error =>
      obtain ⟨hfailure, hedits⟩ := hwalk
      simp only [hfailure]
      exact ⟨rfl, hedits⟩
    | ok a =>
      obtain ⟨hend, hmemory⟩ := hwalk
      simp only [hend]
      exact ⟨rfl, hmemory⟩

theorem each_cons (node : SyntaxTree) (nodes : List SyntaxTree) :
    (.each () .ending (node :: nodes) : PassVisit) =
      (Visit.into node).seq (.each () .ending nodes) := by
  rw [Visit.each]
  refine congrArg (Walk.Visit.call node ()) (funext fun failure => ?_)
  cases failure <;> rfl

theorem carries_each {nodes : List SyntaxTree} {enter : SyntaxTree → Planner Unit}
    (h : ∀ node ∈ nodes, Enters walk node (enter node)) :
    Carries walk (.each () .ending nodes) (nodes.forM enter) := by
  induction nodes with
  | nil => exact carries_done
  | cons node nodes ih =>
    rw [each_cons]
    exact (carries_into (h node List.mem_cons_self)).seq
      (ih fun other ho => h other (List.mem_cons_of_mem node ho))

end Programs

end NotebookCell
