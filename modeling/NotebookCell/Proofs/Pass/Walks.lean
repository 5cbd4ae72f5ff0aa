import NotebookCell.Proofs.Import.Walk
import NotebookCell.Proofs.Pass.Bodies
import NotebookCell.Proofs.Pass.Visitors
import NotebookCell.Proofs.Scope.Walk
import NotebookCell.Proofs.Syntax.Paths

/-!
# The passes as walks

The fold of a pass over the body of a cell is the walk with the visitors of the pass: the walk for
imports is a plain one, and the walk of the scope pass is told the path.
-/

namespace NotebookCell

open Walk (walk walkAlong walkWithPath noop)
open Planner

/-! ### The import pass -/

section Imports

variable {doc : Document} {walk : PassWalk} {node : SyntaxTree}

/-- At each node the visitor does what the fold does, if the walks into the constructs below do. -/
theorem carries_visitImports
    (h : ∀ child ∈ node.constructs, Enters walk child (child.fold (visitImports doc))) :
    Carries walk (constructTree.visit (importVisitors doc) node ()) (node.fold (visitImports doc)) := by
  have hbase : Carries walk (constructTree.baseVisit node ())
      (node.constructs.forM fun child => child.fold (visitImports doc)) := carries_each h
  have hkind : constructTree.kind node = node.kind := rfl
  rw [Walk.Tree.visit, hkind]
  by_cases hk : node.kind ∈ importKinds
  · simp only [importKinds, List.mem_cons, List.not_mem_nil, or_false] at hk
    rcases hk with hk | hk | hk | hk
    · rw [walk_statement hk, hk]
      exact (carries_steps (planImportStatement doc node)).seq hbase
    · rw [walk_clause hk, hk]
      exact (carries_steps (planDefaultBindings doc node)).seq hbase
    · rw [walk_named hk, hk]
      exact carries_steps (planNamedBinding doc node)
    · rw [walk_starred hk, hk]
      exact carries_steps (planNamespaceBinding doc node)
  · rw [walk_other hk]
    simp only [importKinds, List.mem_cons, List.not_mem_nil, or_false, not_or] at hk
    obtain ⟨h1, h2, h3, h4⟩ := hk
    unfold importVisitors
    simp only [beq_iff_eq, h1, h2, h3, h4, if_false]
    by_cases hquiet : (functionDeclarationKinds.contains node.kind || scopeKinds.contains node.kind) = true
    · simp only [hquiet, if_true]
      exact carries_done
    · simp only [hquiet]
      exact hbase

theorem walk_importVisitors (doc : Document) (tooDeep : PassError) {limit : Nat}
    (hlimit : node.height ≤ limit) :
    Enters (Walk.walk constructTree (importVisitors doc) tooDeep limit) node
      (node.fold (visitImports doc)) := by
  induction limit generalizing node with
  | zero => exact absurd hlimit (Nat.not_le.mpr node.height_pos)
  | succ limit ih =>
    refine carries_visitImports fun child hc => ih ?_
    have hlt := SyntaxTree.height_lt_of_mem_children (SyntaxTree.mem_children_of_mem_constructs hc)
    omega

end Imports

/-! ### The scope pass -/

section Scope

open ScopeVisitors

variable {doc : Document} {body : SyntaxTree} {walk : PassWalk} {node parent : SyntaxTree}
  {path : List SyntaxTree}

section Node

variable (h : ∀ child ∈ node.children, Enters walk child (child.fold (visitScope doc body) node))

include h

theorem carries_base :
    Carries walk (constructTree.baseVisit node ()) (walkAll (walked doc body node)) := by
  rw [walked, walkAll_map]
  exact carries_each fun child hc => h child (SyntaxTree.mem_children_of_mem_constructs hc)

theorem carries_field (field : String) :
    Carries walk (.plan (need node field) .into) (walkField node (walked doc body node) field) := by
  have hfield : walkField node (walked doc body node) field =
      need node field >>= fun child => child.fold (visitScope doc body) node := by
    unfold need
    cases hchild : node.child? field with
    | some child =>
      cases node with
      | node info children => exact walkField_map info children _ field hchild
    | none =>
      have hnone : (walked doc body node).find? (fun child => child.1.isField field) = none := by
        rw [walked, List.find?_map]
        exact congrArg (Option.map _) hchild
      rw [walkField, hnone]
      rfl
  rw [hfield]
  exact carries_need fun child hchild => carries_into (h child (SyntaxTree.mem_children_of_child? hchild))

theorem carries_into_field {field : String} {child : SyntaxTree} (hchild : node.child? field = some child) :
    Carries walk (.into child) (walkField node (walked doc body node) field) := by
  have hfield := carries_field h field
  unfold need at hfield
  rw [hchild] at hfield
  exact hfield

theorem carries_declaration (htop : standsAtTop body path = parent.sameNode body) :
    Carries walk (declaration doc body node path)
      (visitDeclaration doc node (parent.sameNode body) (walked doc body node)) := by
  rw [← htop]
  exact carries_plan fun kind => carries_plan fun _ => (carries_base h).seq (carries_steps _)

theorem carries_declarator :
    Carries walk (declarator doc node) (visitDeclarator doc node (walked doc body node)) := by
  refine carries_need fun name hname => (carries_into_field h hname).seq ?_
  cases hvalue : node.child? "value" with
  | some value => exact (carries_into_field h hvalue).untranslated.seq (carries_steps _)
  | none => exact carries_done.seq (carries_steps _)

theorem carries_pattern (plan : SyntaxTree → Planner Unit) :
    Carries walk (pattern node plan) (do
      walkAll (walked doc body node)
      if ← qualifying then node.constructs.forM plan) :=
  (carries_base h).seq (carries_steps _)

theorem carries_defaulted :
    Carries walk (defaulted node) (visitDefault node (walked doc body node)) :=
  (carries_field h "left").seq (carries_field h "right").untranslated

theorem carries_forIn : Carries walk (forIn doc node) (visitForIn doc node (walked doc body node)) := by
  refine carries_plan fun var => ?_
  cases var with
  | false => exact carries_base h
  | true =>
    refine carries_plan fun kind => carries_plan fun start => carries_need fun left hleft =>
      carries_plan fun stop => carries_plan fun _ => carries_plan fun _ =>
      (carries_into_field h hleft).seq ?_
    have hothers : walkAll ((walked doc body node).filter fun child => !child.1.sameNode left) =
        (node.constructs.filter fun child => !child.sameNode left).forM fun child =>
          child.fold (visitScope doc body) node := by
      rw [walked, List.filter_map, SyntaxTree.constructs, List.filter_comm]
      exact walkAll_map _ _
    have hloop : Carries walk
        (.each () .ending (node.constructs.filter fun child => !child.sameNode left))
        ((node.constructs.filter fun child => !child.sameNode left).forM fun child =>
          child.fold (visitScope doc body) node) := carries_each fun child hc =>
      h child (SyntaxTree.mem_children_of_mem_constructs (List.mem_filter.mp hc).1)
    rw [hothers]
    split
    · exact carries_plan fun _ => carries_plan fun _ => hloop
    · exact carries_pure (carries_plan fun _ => hloop)

theorem carries_other (hk : node.kind ∉ ruledKinds) (path : List SyntaxTree) :
    Carries walk (constructTree.visitWithPath (scopeVisitors doc body) node () path)
      (node.fold (visitScope doc body) parent) := by
  have hkind : constructTree.kind node = node.kind := rfl
  have hnone : scopeVisitors doc body node.kind = none := by
    simp only [ruledKinds, statementKinds, List.mem_append, List.mem_cons, List.not_mem_nil, or_false,
      not_or] at hk
    obtain ⟨⟨⟨h1, h2, h3, h4, h5, h6⟩, h7, h8, h9, h10, h11⟩, h12⟩ := hk
    unfold scopeVisitors
    simp only [functionDeclarationKinds, List.contains_eq_mem, List.mem_cons, List.not_mem_nil,
      beq_iff_eq, Bool.or_eq_true, decide_eq_true_eq, h1, h2, h3, h4, h5, h6, h7, h8, h9, h10, h11,
      h12, or_self, if_false]
  rw [Walk.Tree.visitWithPath, hkind, visit_other hk, hnone]
  exact carries_base h

/-- At each node the visitor does what the fold does, if the walks into the children do. -/
theorem carries_visitScope (htop : standsAtTop body path = parent.sameNode body) :
    Carries walk (constructTree.visitWithPath (scopeVisitors doc body) node () path)
      (node.fold (visitScope doc body) parent) := by
  have hkind : constructTree.kind node = node.kind := rfl
  rw [Walk.Tree.visitWithPath, hkind]
  by_cases hk : node.kind ∈ ruledKinds
  · simp only [ruledKinds, statementKinds, List.mem_append, List.mem_cons, List.not_mem_nil, or_false] at hk
    rcases hk with ((hk | hk | hk | hk | hk | hk) | hk | hk | hk | hk | hk) | hk
    · rw [visit_class hk, hk, ← htop]
      exact (carries_base h).seq (carries_steps _)
    · rw [visit_function (by rw [hk]; decide), hk]
      exact carries_steps _
    · rw [visit_function (by rw [hk]; decide), hk]
      exact carries_steps _
    · rw [visit_declaration (Or.inl hk), hk]
      exact carries_declaration h htop
    · rw [visit_declaration (Or.inr hk), hk]
      exact carries_declaration h htop
    · rw [visit_forIn hk, hk]
      exact carries_forIn h
    · rw [visit_declarator hk, hk]
      exact carries_declarator h
    · rw [visit_objectPattern hk, hk]
      exact carries_pattern h (planProperty doc)
    · rw [visit_arrayPattern hk, hk]
      exact carries_pattern h (planQualified doc)
    · rw [visit_default (Or.inl hk), hk]
      exact carries_defaulted h
    · rw [visit_default (Or.inr hk), hk]
      exact carries_defaulted h
    · have hnoop : scopeVisitors doc body node.kind = some fun node state _ => noop node state := by
        simp only [scopeKinds, List.mem_cons, List.not_mem_nil, or_false] at hk
        rcases hk with hk | hk | hk | hk | hk | hk | hk <;> rw [hk] <;> rfl
      rw [visit_scope hk, hnoop]
      exact carries_done
  · exact carries_other h hk path

end Node

/-- Walking below a path with the visitors of the scope pass is folding, where the limit allows for the
height. -/
theorem walkAlong_scopeVisitors (doc : Document) (body : SyntaxTree) (tooDeep : PassError) {limit : Nat}
    {above : List SyntaxTree} (hlimit : node.height ≤ limit) (habove : above.getLast? = some parent) :
    Enters (walkAlong constructTree (scopeVisitors doc body) tooDeep limit above) node
      (node.fold (visitScope doc body) parent) := by
  induction limit generalizing node parent above with
  | zero => exact absurd hlimit (Nat.not_le.mpr node.height_pos)
  | succ limit ih =>
    have htop : standsAtTop body (above ++ [node]) = parent.sameNode body := by
      rw [standsAtTop, List.dropLast_concat, habove]
      rfl
    refine carries_visitScope (fun child hc => ih ?_ List.getLast?_concat) htop
    have hlt := SyntaxTree.height_lt_of_mem_children hc
    omega

theorem walkWithPath_scopeVisitors (doc : Document) (tooDeep : PassError) {limit : Nat}
    (hlimit : body.height ≤ limit) (hbody : body.kind = "statement_block") :
    Enters (walkWithPath constructTree (scopeVisitors doc body) tooDeep limit) body
      (body.fold (visitScope doc body) body) := by
  intro state
  rw [Walk.walkWithPath_eq]
  cases limit with
  | zero => exact absurd hlimit (Nat.not_le.mpr body.height_pos)
  | succ limit =>
    -- The body has no parent on its path, but no visitor either that would ask for it.
    have hruled : body.kind ∉ ruledKinds := by rw [hbody]; decide
    refine carries_other (fun child hc => ?_) hruled _ state
    have hlt := SyntaxTree.height_lt_of_mem_children hc
    exact walkAlong_scopeVisitors doc body tooDeep (by omega) List.getLast?_concat

end Scope

/-! ### The passes -/

/-- A walk as a plan, which fails as the walk fails. -/
def Planner.ofWalk (walk : PlanState → Walk.Result PlanState PassError) : Planner Unit := fun state =>
  match (walk state).failure with
  | none => (.ok (), (walk state).memory)
  | some error => (.error error, (walk state).memory)

theorem Planner.run_ofWalk_good {walk : PlanState → Walk.Result PlanState PassError} {state : PlanState}
    (h : (walk state).failure = none) :
    (Planner.ofWalk walk).run.run state = (.ok (), (walk state).memory) := by
  change Planner.ofWalk walk state = _
  rw [ofWalk, h]

theorem Planner.run_ofWalk_bad {walk : PlanState → Walk.Result PlanState PassError} {state : PlanState}
    {error : PassError} (h : (walk state).failure = some error) :
    (Planner.ofWalk walk).run.run state = (.error error, (walk state).memory) := by
  change Planner.ofWalk walk state = _
  rw [ofWalk, h]

/-- The same comes of a walk and of the plan that it agrees with, whatever follows. -/
theorem carryOut_ofWalk (source : MappedText) {walk : PassWalk} {node : SyntaxTree}
    {plan : Planner Unit} (h : Enters walk node plan) (rest : Planner Unit) :
    carryOut source (do Planner.ofWalk (walk node ()); rest) = carryOut source (do plan; rest) := by
  have hwalk := h {}
  unfold carryOut
  simp only [ExceptT.run_bind, StateT.run_bind]
  cases hplan : plan.run.run {} with
  | mk outcome after =>
    rw [hplan] at hwalk
    cases outcome with
    | ok a =>
      obtain ⟨hend, hmemory⟩ := hwalk
      rw [Planner.run_ofWalk_good hend, hmemory]
    | error error =>
      obtain ⟨hfailure, hedits⟩ := hwalk
      rw [Planner.run_ofWalk_bad hfailure]
      generalize (walk node () {}).memory = memory at hedits
      cases memory with
      | mk edits flag =>
        change edits = after.edits at hedits
        subst hedits
        rfl

theorem editBody_congr {plan plan' : Document → SyntaxTree → Planner Unit} {source : MappedText}
    (h : ∀ doc body, body.kind = "statement_block" →
      carryOut source (plan doc body) = carryOut source (plan' doc body)) (tree : SyntaxTree) :
    editBody plan source tree = editBody plan' source tree := by
  unfold editBody
  cases hread : Document.read source tree with
  | error e => rfl
  | ok doc =>
    cases hbody : doc.wrappedBody source with
    | error e => simp only [hbody]
    | ok body =>
      simp only [hbody]
      exact h doc body (kind_of_wrappedBody hbody)

/-- The import pass is a walk with its table of visitors. -/
theorem applyImportPass_eq_walk (tooDeep : PassError) (source : MappedText) (tree : SyntaxTree) :
    applyImportPass source tree = editBody (fun doc body =>
      .ofWalk (walk constructTree (importVisitors doc) tooDeep body.height body ())) source tree := by
  refine (editBody_congr (fun doc body _ => ?_) tree).symm
  have hwalk := carryOut_ofWalk source (walk_importVisitors doc tooDeep (Nat.le_refl body.height)) (pure ())
  rw [bind_pure_unit, bind_pure_unit] at hwalk
  exact hwalk

/-- The scope pass is a walk with its table of visitors, which are told the path, and a return. -/
theorem applyScopePass_eq_walk (tooDeep : PassError) (source : MappedText) (tree : SyntaxTree) :
    applyScopePass source tree = editBody (fun doc body => do
      .ofWalk (walkWithPath constructTree (scopeVisitors doc body) tooDeep body.height body ())
      planReturn doc body) source tree :=
  (editBody_congr (fun doc body hkind => carryOut_ofWalk source
    (walkWithPath_scopeVisitors doc tooDeep (Nat.le_refl body.height) hkind) (planReturn doc body))
    tree).symm

end NotebookCell
