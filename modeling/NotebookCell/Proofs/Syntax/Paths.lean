import NotebookCell.Syntax.Walk

/-!
# Paths of walks

A walk with a path does what the plain walk does, and the path that a visitor is told leads through the
nodes whose visits are going on. Since every visit takes its node off the stack again, a visitor's
program always finds the stack as the visitor was told it, also behind calls that failed: so the stack
can be read as an argument that is handed down (`walkAlong`). What happens on a walk is written down by
the visitors themselves, each of which notes when it is called and how it ends.
-/

namespace NotebookCell.Walk

variable {Node State Memory Failure : Type}

/-! ### The stack as an argument -/

def walkAlong (tree : Tree Node)
    (visitors : Visitors (Node → State → List Node → Visit Node State Memory Failure))
    (tooDeep : Failure) : Nat → List Node → Node → State → Memory → Result Memory Failure
  | 0, _, _, _, memory => { memory, failure := some tooDeep }
  | limit + 1, above, node, state, memory =>
    (tree.visitWithPath visitors node state (above ++ [node])).run
      (walkAlong tree visitors tooDeep limit (above ++ [node])) memory

theorem Visit.runOnStack_eq
    {walkStack : Node → State → Memory → List Node → Result Memory Failure × List Node}
    {walkPlain : Node → State → Memory → Result Memory Failure} {stack : List Node}
    (h : ∀ node state memory, walkStack node state memory stack = (walkPlain node state memory, stack))
    (visit : Visit Node State Memory Failure) (memory : Memory) :
    visit.runOnStack walkStack memory stack = (visit.run walkPlain memory, stack) := by
  induction visit generalizing memory with
  | done => rfl
  | fail failure => rfl
  | load next ih => exact ih memory memory
  | store held next ih => exact ih held
  | call node state next ih =>
    rw [runOnStack, h]
    exact ih (walkPlain node state memory).failure (walkPlain node state memory).memory

variable (tree : Tree Node) (tooDeep : Failure)

theorem walkOnStack_eq
    (visitors : Visitors (Node → State → List Node → Visit Node State Memory Failure)) (limit : Nat)
    (node : Node) (state : State) (memory : Memory) (stack : List Node) :
    walkOnStack tree visitors tooDeep limit node state memory stack =
      (walkAlong tree visitors tooDeep limit stack node state memory, stack) := by
  induction limit generalizing node state memory stack with
  | zero => rfl
  | succ limit ih =>
    -- calls leave the stack as they find it, so the visitor's program finds its own path all along
    have hrun := Visit.runOnStack_eq
      (fun below state memory => ih below state memory (stack ++ [node]))
      (tree.visitWithPath visitors node state (stack ++ [node])) memory
    rw [walkOnStack, hrun, walkAlong]
    exact congrArg (Prod.mk _) List.dropLast_concat

theorem walkWithPath_eq
    (visitors : Visitors (Node → State → List Node → Visit Node State Memory Failure)) (limit : Nat)
    (node : Node) (state : State) (memory : Memory) :
    walkWithPath tree visitors tooDeep limit node state memory =
      walkAlong tree visitors tooDeep limit [] node state memory := by
  rw [walkWithPath, walkOnStack_eq]

/-! ### Visitors that ignore their path -/

def Visitors.untold (visitors : Visitors (Node → State → Visit Node State Memory Failure)) :
    Visitors (Node → State → List Node → Visit Node State Memory Failure) :=
  fun kind => (visitors kind).map fun visitor node state _ => visitor node state

theorem Tree.visitWithPath_untold
    (visitors : Visitors (Node → State → Visit Node State Memory Failure)) (node : Node)
    (state : State) (path : List Node) :
    tree.visitWithPath visitors.untold node state path = tree.visit visitors node state := by
  rw [visitWithPath, visit, Visitors.untold]
  cases visitors (tree.kind node) <;> rfl

theorem walkAlong_untold (visitors : Visitors (Node → State → Visit Node State Memory Failure))
    (limit : Nat) (above : List Node) (node : Node) (state : State) (memory : Memory) :
    walkAlong tree visitors.untold tooDeep limit above node state memory =
      walk tree visitors tooDeep limit node state memory := by
  induction limit generalizing above node state memory with
  | zero => rfl
  | succ limit ih =>
    have hbelow : walkAlong tree visitors.untold tooDeep limit (above ++ [node]) =
        walk tree visitors tooDeep limit :=
      funext fun below => funext fun state => funext fun memory => ih (above ++ [node]) below state memory
    rw [walkAlong, walk, hbelow, Tree.visitWithPath_untold]

/-! ### Visitors that are watched -/

/-- What is seen of a walk: the visit of a node begins, where the visitor is told something, or ends. -/
inductive Event (Node State Failure Told : Type) where
  | enter (node : Node) (state : State) (told : Told)
  | leave (node : Node) (failure : Option Failure)
deriving DecidableEq

def Event.untold {Told : Type} : Event Node State Failure Told → Event Node State Failure Unit
  | .enter node state _ => .enter node state ()
  | .leave node failure => .leave node failure

/-- Memory with the events so far, which the visitors do not see. -/
abbrev Seen (Memory Node State Failure Told : Type) := Memory × List (Event Node State Failure Told)

/-- The program of a visit of `node` that also writes down how it ends. -/
def Visit.logged {Told : Type} (node : Node) :
    Visit Node State Memory Failure → Visit Node State (Seen Memory Node State Failure Told) Failure
  | .done => .load fun seen => .store (seen.1, seen.2 ++ [.leave node none]) .done
  | .fail failure =>
    .load fun seen => .store (seen.1, seen.2 ++ [.leave node (some failure)]) (.fail failure)
  | .load next => .load fun seen => (next seen.1).logged node
  | .store memory next => .load fun seen => .store (memory, seen.2) (next.logged node)
  | .call below state next => .call below state fun failure => (next failure).logged node

/-- The program of a visit of `node` that also writes down how it begins and how it ends. -/
def Visit.watched {Told : Type} (visit : Visit Node State Memory Failure) (node : Node) (state : State)
    (told : Told) : Visit Node State (Seen Memory Node State Failure Told) Failure :=
  .load fun seen => .store (seen.1, seen.2 ++ [.enter node state told]) (visit.logged node)

/-- Watches what happens at every node, also where no visitor is called. -/
def Visitors.watched (visitors : Visitors (Node → State → Visit Node State Memory Failure)) :
    Visitors (Node → State → Visit Node State (Seen Memory Node State Failure Unit) Failure) :=
  fun _ => some fun node state => (tree.visit visitors node state).watched node state ()

def Visitors.watchedWithPath
    (visitors : Visitors (Node → State → List Node → Visit Node State Memory Failure)) :
    Visitors
      (Node → State → List Node → Visit Node State (Seen Memory Node State Failure (List Node)) Failure) :=
  fun _ => some fun node state path =>
    (tree.visitWithPath visitors node state path).watched node state path

def Result.map {Memory' : Type} (view : Memory → Memory') (result : Result Memory Failure) :
    Result Memory' Failure :=
  { memory := view result.memory, failure := result.failure }

/-- A program does on one memory what another does on a view of it, if their calls do. -/
def Visit.Follows {Memory' : Type} (view : Memory → Memory') (visit : Visit Node State Memory Failure)
    (other : Visit Node State Memory' Failure) : Prop :=
  ∀ (walk : Node → State → Memory → Result Memory Failure)
    (walk' : Node → State → Memory' → Result Memory' Failure),
    (∀ node state memory, (walk node state memory).map view = walk' node state (view memory)) →
    ∀ memory, (visit.run walk memory).map view = other.run walk' (view memory)

theorem walkAlong_follows {Memory' : Type} {view : Memory → Memory'}
    {visitors : Visitors (Node → State → List Node → Visit Node State Memory Failure)}
    {others : Visitors (Node → State → List Node → Visit Node State Memory' Failure)}
    (h : ∀ node state path, (tree.visitWithPath visitors node state path).Follows view
      (tree.visitWithPath others node state path))
    (limit : Nat) (above : List Node) (node : Node) (state : State) (memory : Memory) :
    (walkAlong tree visitors tooDeep limit above node state memory).map view =
      walkAlong tree others tooDeep limit above node state (view memory) := by
  induction limit generalizing above node state memory with
  | zero => rfl
  | succ limit ih =>
    exact h node state (above ++ [node]) _ _ (ih (above ++ [node])) memory

theorem Visit.watched_follows {Told : Type} (visit : Visit Node State Memory Failure) (node : Node)
    (state : State) (told : Told) : (visit.watched node state told).Follows Prod.fst visit := by
  intro walk walk' h seen
  have hlogged (seen : Seen Memory Node State Failure Told) :
      ((visit.logged node).run walk seen).map Prod.fst = visit.run walk' seen.1 := by
    induction visit generalizing seen with
    | done => rfl
    | fail failure => rfl
    | load next ih => exact ih seen.1 seen
    | store memory next ih => exact ih (memory, seen.2)
    | call below state next ih =>
      rw [run, ← h below state seen]
      exact ih _ _
  exact hlogged _

/-- A program that is watched does the same whatever is written down of what it was told. -/
theorem Visit.watched_untold {Told : Type} (visit : Visit Node State Memory Failure) (node : Node)
    (state : State) (told : Told) :
    (visit.watched node state told).Follows (Prod.map id (List.map Event.untold))
      (visit.watched node state ()) := by
  intro walk walk' h seen
  have hlogged (seen : Seen Memory Node State Failure Told) :
      ((visit.logged node).run walk seen).map (Prod.map id (List.map Event.untold)) =
        (visit.logged node).run walk' (seen.map id (List.map Event.untold)) := by
    induction visit generalizing seen with
    | done | fail => simp only [logged, run, Result.map, Prod.map, List.map_append]; rfl
    | load next ih => exact ih seen.1 seen
    | store memory next ih => exact ih (memory, seen.2)
    | call below state next ih =>
      rw [logged, logged, run, run, ← h below state seen]
      exact ih _ _
  have hentered : (seen.1, seen.2 ++ [Event.enter node state told]).map id (List.map Event.untold) =
      (seen.1, seen.2.map Event.untold ++ [Event.enter node state ()]) := by
    rw [Prod.map, List.map_append]
    rfl
  exact (hlogged _).trans (by rw [hentered]; rfl)

/-! ### Nested events -/

/-- The nodes whose visits are going on after some events, outermost first. -/
def openNodes {Told : Type} (opened : List Node) : List (Event Node State Failure Told) → List Node
  | [] => opened
  | .enter node _ _ :: events => openNodes (opened ++ [node]) events
  | .leave _ _ :: events => openNodes opened.dropLast events

/-- Every visitor is told the nodes whose visits are going on when it is called, its own node included,
every visit that ends is the innermost one, and in the end all have ended. -/
structure PathsHold (events : List (Event Node State Failure (List Node))) : Prop where
  told : ∀ before node state path after, events = before ++ .enter node state path :: after →
    path = openNodes [] before ++ [node]
  innermost : ∀ before node failure after, events = before ++ .leave node failure :: after →
    (openNodes [] before).getLast? = some node
  ended : openNodes [] events = []

/-- Events that take the visits going on from `opened` to `left`, each as `PathsHold` asks. -/
inductive Nested : List Node → List (Event Node State Failure (List Node)) → List Node → Prop
  | nil (opened : List Node) : Nested opened [] opened
  | enter {opened events left} (node : Node) (state : State) (h : Nested (opened ++ [node]) events left) :
    Nested opened (.enter node state (opened ++ [node]) :: events) left
  | leave {opened events left} (node : Node) (failure : Option Failure) (h : Nested opened events left) :
    Nested (opened ++ [node]) (.leave node failure :: events) left

namespace Nested

variable {opened between left : List Node} {events : List (Event Node State Failure (List Node))}

theorem append {later : List (Event Node State Failure (List Node))} (h : Nested opened events between)
    (hlater : Nested between later left) : Nested opened (events ++ later) left := by
  induction h with
  | nil opened => exact hlater
  | enter node state _ ih => exact .enter node state (ih hlater)
  | leave node failure _ ih => exact .leave node failure (ih hlater)

theorem openNodes_eq (h : Nested opened events left) : openNodes opened events = left := by
  induction h with
  | nil opened => rfl
  | enter node state _ ih => exact ih
  | leave node failure _ ih => rwa [openNodes, List.dropLast_concat]

theorem after {before after : List (Event Node State Failure (List Node))}
    (h : Nested opened (before ++ after) left) : Nested (openNodes opened before) after left := by
  induction before generalizing opened with
  | nil => exact h
  | cons event before ih =>
    cases h with
    | enter node state h => exact ih h
    | leave node failure h =>
      rw [openNodes, List.dropLast_concat]
      exact ih h

theorem told {node : Node} {state : State} {path : List Node}
    (h : Nested opened (.enter node state path :: events) left) : path = opened ++ [node] := by
  cases h
  rfl

theorem innermost {node : Node} {failure : Option Failure}
    (h : Nested opened (.leave node failure :: events) left) : opened.getLast? = some node := by
  cases h
  exact List.getLast?_concat

theorem pathsHold (h : Nested [] events []) : PathsHold events where
  told := by
    rintro before node state path after rfl
    exact h.after.told
  innermost := by
    rintro before node failure after rfl
    exact h.after.innermost
  ended := h.openNodes_eq

end Nested

/-- A run writes down nested events, after which the same visits are going on as before. -/
def Result.Logs (opened : List Node) (events : List (Event Node State Failure (List Node)))
    (result : Result (Seen Memory Node State Failure (List Node)) Failure) : Prop :=
  ∃ added, result.memory.2 = events ++ added ∧ Nested opened added opened

/-- The program of a visit writes down what its calls do, and at last how it ends itself. -/
theorem Visit.exists_logged {path : List Node} {node : Node}
    {walk : Node → State → Seen Memory Node State Failure (List Node) →
      Result (Seen Memory Node State Failure (List Node)) Failure}
    (h : ∀ below state seen, (walk below state seen).Logs path seen.2)
    (visit : Visit Node State Memory Failure) (seen : Seen Memory Node State Failure (List Node)) :
    ∃ inner, ((visit.logged node).run walk seen).memory.2 =
        seen.2 ++ (inner ++ [.leave node ((visit.logged node).run walk seen).failure]) ∧
      Nested path inner path := by
  induction visit generalizing seen with
  | done => exact ⟨[], rfl, .nil path⟩
  | fail failure => exact ⟨[], rfl, .nil path⟩
  | load next ih => exact ih seen.1 seen
  | store memory next ih => exact ih (memory, seen.2)
  | call below state next ih =>
    obtain ⟨added, hadded, hnested⟩ := h below state seen
    obtain ⟨inner, hinner, hlater⟩ := ih (walk below state seen).failure (walk below state seen).memory
    refine ⟨added ++ inner, hinner.trans ?_, hnested.append hlater⟩
    rw [hadded, List.append_assoc, List.append_assoc]
    rfl

section

variable (visitors : Visitors (Node → State → List Node → Visit Node State Memory Failure)) (limit : Nat)
  (above : List Node) (node : Node) (state : State) (seen : Seen Memory Node State Failure (List Node))

theorem exists_walkAlong
    (h : ∀ below state seen, (walkAlong tree (visitors.watchedWithPath tree) tooDeep limit
      (above ++ [node]) below state seen).Logs (above ++ [node]) seen.2) :
    ∃ inner,
      (walkAlong tree (visitors.watchedWithPath tree) tooDeep (limit + 1) above node state
          seen).memory.2 =
        seen.2 ++ .enter node state (above ++ [node]) :: (inner ++
          [.leave node (walkAlong tree (visitors.watchedWithPath tree) tooDeep (limit + 1) above node
            state seen).failure]) ∧
      Nested (above ++ [node]) inner (above ++ [node]) := by
  obtain ⟨inner, hinner, hnested⟩ := Visit.exists_logged h
    (tree.visitWithPath visitors node state (above ++ [node]))
    (seen.1, seen.2 ++ [.enter node state (above ++ [node])])
  exact ⟨inner, hinner.trans (List.append_assoc _ _ _), hnested⟩

theorem logs_walkAlong :
    (walkAlong tree (visitors.watchedWithPath tree) tooDeep limit above node state seen).Logs above
      seen.2 := by
  induction limit generalizing above node state seen with
  | zero => exact ⟨[], (List.append_nil _).symm, .nil above⟩
  | succ limit ih =>
    obtain ⟨inner, hinner, hnested⟩ := exists_walkAlong tree tooDeep visitors limit above node state seen
      (ih (above ++ [node]))
    exact ⟨_, hinner, .enter node state (hnested.append (.leave node _ (.nil above)))⟩

end

/-! ### Watched walks -/

/-- Walks into `node`, and writes down what is seen. -/
def watch (visitors : Visitors (Node → State → Visit Node State Memory Failure)) (limit : Nat)
    (node : Node) (state : State) (memory : Memory) :
    Result (Seen Memory Node State Failure Unit) Failure :=
  walk tree (visitors.watched tree) tooDeep limit node state (memory, [])

/-- Walks into `node` with a path, and writes down what is seen. -/
def watchWithPath (visitors : Visitors (Node → State → List Node → Visit Node State Memory Failure))
    (limit : Nat) (node : Node) (state : State) (memory : Memory) :
    Result (Seen Memory Node State Failure (List Node)) Failure :=
  walkWithPath tree (visitors.watchedWithPath tree) tooDeep limit node state (memory, [])

variable (limit : Nat) (node : Node) (state : State) (memory : Memory)

theorem watchWithPath_memory
    (visitors : Visitors (Node → State → List Node → Visit Node State Memory Failure)) :
    (watchWithPath tree tooDeep visitors limit node state memory).map Prod.fst =
      walkWithPath tree visitors tooDeep limit node state memory := by
  rw [watchWithPath, walkWithPath_eq, walkWithPath_eq]
  exact walkAlong_follows tree tooDeep (fun node state path => Visit.watched_follows _ node state path)
    limit [] node state (memory, [])

theorem walkWithPath_untold (visitors : Visitors (Node → State → Visit Node State Memory Failure)) :
    walkWithPath tree visitors.untold tooDeep limit node state memory =
      walk tree visitors tooDeep limit node state memory := by
  rw [walkWithPath_eq, walkAlong_untold]

theorem watch_memory (visitors : Visitors (Node → State → Visit Node State Memory Failure)) :
    (watch tree tooDeep visitors limit node state memory).map Prod.fst =
      walk tree visitors tooDeep limit node state memory := by
  rw [watch, ← walkAlong_untold tree tooDeep (visitors.watched tree) limit [],
    ← walkAlong_untold tree tooDeep visitors limit []]
  refine walkAlong_follows tree tooDeep (fun node state path => ?_) limit [] node state (memory, [])
  rw [Tree.visitWithPath_untold, Tree.visitWithPath_untold]
  exact Visit.watched_follows _ node state ()

theorem watchWithPath_untold (visitors : Visitors (Node → State → Visit Node State Memory Failure)) :
    (watchWithPath tree tooDeep visitors.untold limit node state memory).map
        (Prod.map id (List.map Event.untold)) =
      watch tree tooDeep visitors limit node state memory := by
  rw [watchWithPath, watch, walkWithPath_eq,
    ← walkAlong_untold tree tooDeep (visitors.watched tree) limit []]
  refine walkAlong_follows tree tooDeep (fun node state path => ?_) limit [] node state (memory, [])
  have hwatched : tree.visitWithPath (visitors.untold.watchedWithPath tree) node state path =
      (tree.visit visitors node state).watched node state path :=
    congrArg (fun visit => visit.watched node state path)
      (tree.visitWithPath_untold visitors node state path)
  rw [hwatched, Tree.visitWithPath_untold]
  exact Visit.watched_untold _ node state path

theorem watchWithPath_pathsHold
    (visitors : Visitors (Node → State → List Node → Visit Node State Memory Failure)) :
    PathsHold (watchWithPath tree tooDeep visitors limit node state memory).memory.2 := by
  rw [watchWithPath, walkWithPath_eq]
  obtain ⟨added, hadded, hnested⟩ :=
    logs_walkAlong tree tooDeep visitors limit [] node state (memory, [])
  rw [hadded]
  exact hnested.pathsHold

/-- The first visit is that of the node where the walk begins, and it ends as the walk does. -/
theorem watchWithPath_first
    (visitors : Visitors (Node → State → List Node → Visit Node State Memory Failure)) :
    ∃ inner, (watchWithPath tree tooDeep visitors (limit + 1) node state memory).memory.2 =
      .enter node state [node] :: (inner ++
        [.leave node (walkWithPath tree visitors tooDeep (limit + 1) node state memory).failure]) := by
  rw [← watchWithPath_memory, watchWithPath, walkWithPath_eq]
  obtain ⟨inner, hinner, -⟩ := exists_walkAlong tree tooDeep visitors limit [] node state (memory, [])
    (logs_walkAlong tree tooDeep visitors limit [node])
  exact ⟨inner, hinner⟩

/-- A walk with a path does what the plain walk does, with the same calls, and tells every visitor the
nodes whose visits are going on, from the node where the walk begins. -/
theorem walkWithPath_calls :
    (∀ visitors : Visitors (Node → State → Visit Node State Memory Failure),
      walkWithPath tree visitors.untold tooDeep limit node state memory =
          walk tree visitors tooDeep limit node state memory ∧
        (watchWithPath tree tooDeep visitors.untold limit node state memory).map
            (Prod.map id (List.map Event.untold)) =
          watch tree tooDeep visitors limit node state memory ∧
        (watch tree tooDeep visitors limit node state memory).map Prod.fst =
          walk tree visitors tooDeep limit node state memory) ∧
      ∀ visitors : Visitors (Node → State → List Node → Visit Node State Memory Failure),
        (watchWithPath tree tooDeep visitors limit node state memory).map Prod.fst =
            walkWithPath tree visitors tooDeep limit node state memory ∧
          PathsHold (watchWithPath tree tooDeep visitors limit node state memory).memory.2 ∧
          ∃ inner, (watchWithPath tree tooDeep visitors (limit + 1) node state memory).memory.2 =
            .enter node state [node] :: (inner ++
              [.leave node
                (walkWithPath tree visitors tooDeep (limit + 1) node state memory).failure]) :=
  ⟨fun visitors =>
    ⟨walkWithPath_untold tree tooDeep limit node state memory visitors,
      watchWithPath_untold tree tooDeep limit node state memory visitors,
      watch_memory tree tooDeep limit node state memory visitors⟩,
    fun visitors =>
      ⟨watchWithPath_memory tree tooDeep limit node state memory visitors,
        watchWithPath_pathsHold tree tooDeep limit node state memory visitors,
        watchWithPath_first tree tooDeep limit node state memory visitors⟩⟩

/-- A tree of four nodes: below the first are the second and the last, and the third is below the
second. -/
def fourNodes : Tree Nat where
  kind node := if node = 0 then "try" else if node = 2 then "throw" else "block"
  children node := if node = 1 then [2] else []

/-- Visitors that fail at one kind of node, and at another go on into the last node after a failure. -/
def trying : Visitors (Nat → Unit → List Nat → Visit Nat Unit Unit String)
  | "try" => some fun _ state _ => .call 1 state fun _ => .call 3 state .ending
  | "throw" => some fun _ _ _ => .fail "thrown"
  | _ => none

example : (watchWithPath fourNodes "too deep" trying 8 0 () ()).memory.2 =
    [.enter 0 () [0], .enter 1 () [0, 1], .enter 2 () [0, 1, 2], .leave 2 (some "thrown"),
      .leave 1 (some "thrown"), .enter 3 () [0, 3], .leave 3 none, .leave 0 none] := by
  decide +kernel

end NotebookCell.Walk
