import Mathlib.Tactic.Choose
import NotebookCell.Proofs.Scope.Walk

/-!
# The walk makes the rendering

For every kind of node, the edits planned by the walk into it, together with those that the pattern
around it plans for it, leave of the node's range the node's rendering.
-/

namespace NotebookCell

open Planner

/-! ### What is planned for a node -/

def NameMode.extra (doc : Document) (node : SyntaxTree) : NameMode → Planner Unit
  | .bound => planQualified doc node
  | .property => planProperty doc node
  | _ => pure ()

/-- Walked into from `parent`, a node gets the edits `own`, and from the pattern that holds it the
edits `extra`; together they make its rendering. -/
structure Planned (doc : Document) (source : MappedText) (body node parent : SyntaxTree)
    (mode : NameMode) (own extra : List Edit) : Prop where
  walk : (node.fold (visitScope doc body) parent).Plans mode.flag own
  asked : ∀ flag, (mode.extra doc node).Plans flag extra
  own_within : doc.InNode node own
  extra_within : doc.InNode node extra
  patch : Edit.patch source (own ++ extra) (doc.first node) (doc.past node) =
    renderScope doc source node (parent.sameNode body) mode

theorem Planner.Plans.unique {plan : Planner Unit} {flag : Bool} {edits edits' : List Edit}
    (h : plan.Plans flag edits) (h' : plan.Plans flag edits') : edits = edits' := by
  have hsame := (h []).symm.trans (h' [])
  rw [List.nil_append, List.nil_append] at hsame
  cases hsame
  rfl

variable {doc : Document} {source : MappedText} {body node parent : SyntaxTree} {mode : NameMode}

theorem Planned.extra_eq_nil {own extra : List Edit}
    (h : Planned doc source body node parent mode own extra) (hmode : mode = mode.inner) :
    extra = [] := by
  have hnone : (mode.extra doc node).Plans true [] := by
    cases mode with
    | off => exact runs_pure () true
    | on => exact runs_pure () true
    | bound => cases hmode
    | property => cases hmode
  exact (h.asked true).unique hnone

/-! ### Patterns that ask for nothing -/

/-- The kinds of node for which the pattern around them can plan something. -/
def bindingKinds : List String :=
  ["identifier", "assignment_pattern", "rest_pattern", "object_assignment_pattern",
    "shorthand_property_identifier_pattern", "pair_pattern"]

theorem planQualified_of_isTarget (h : node.isTarget = true) :
    planQualified doc node =
      if node.kind == "identifier" then before doc node namespaceDot else pure () := by
  rw [SyntaxTree.isTarget, Bool.and_eq_true, bne_iff_ne, bne_iff_ne] at h
  have htarget : boundTarget node = pure (some node) := by
    rw [boundTarget, if_neg (by rw [beq_iff_eq]; exact h.1), if_neg (by rw [beq_iff_eq]; exact h.2)]
  rw [planQualified, htarget]
  rfl

theorem planProperty_of_ne (h : node.kind ≠ "object_assignment_pattern") :
    planProperty doc node =
      if node.kind == "shorthand_property_identifier_pattern" then do
        let name ← ask (doc.nodeText node)
        after doc node (':' :: (namespaceDot ++ name))
      else if node.kind == "pair_pattern" then do
        planQualified doc (← need node "value")
      else if node.kind == "rest_pattern" then planQualified doc node
      else pure () := by
  rw [planProperty, if_neg (by rw [beq_iff_eq]; exact h)]
  rfl

theorem extra_quiet_of (hrest : node.kind ≠ "rest_pattern")
    (hassign : node.kind ≠ "assignment_pattern") (hobject : node.kind ≠ "object_assignment_pattern")
    (hid : mode = .bound → node.kind ≠ "identifier")
    (hshort : mode = .property → node.kind ≠ "shorthand_property_identifier_pattern")
    (hpair : mode = .property → node.kind ≠ "pair_pattern") (flag : Bool) :
    (mode.extra doc node).Plans flag [] := by
  cases mode with
  | off => exact runs_pure () flag
  | on => exact runs_pure () flag
  | bound =>
    have htarget : node.isTarget = true := by
      rw [SyntaxTree.isTarget, Bool.and_eq_true, bne_iff_ne, bne_iff_ne]
      exact ⟨hassign, hrest⟩
    rw [NameMode.extra, planQualified_of_isTarget htarget,
      if_neg (by rw [beq_iff_eq]; exact hid rfl)]
    exact runs_pure () flag
  | property =>
    rw [NameMode.extra, planProperty_of_ne hobject, if_neg (by rw [beq_iff_eq]; exact hshort rfl),
      if_neg (by rw [beq_iff_eq]; exact hpair rfl), if_neg (by rw [beq_iff_eq]; exact hrest)]
    exact runs_pure () flag

theorem extra_quiet (hk : node.kind ∉ bindingKinds) (mode : NameMode) (flag : Bool) :
    (mode.extra doc node).Plans flag [] := by
  simp only [bindingKinds, List.mem_cons, List.not_mem_nil, or_false, not_or] at hk
  obtain ⟨hid, hassign, hrest, hobject, hshort, hpair⟩ := hk
  exact extra_quiet_of hrest hassign hobject (fun _ => hid) (fun _ => hshort) (fun _ => hpair) flag

theorem exists_planned {own : List Edit} (hk : node.kind ∉ bindingKinds)
    (hwalk : (node.fold (visitScope doc body) parent).Plans mode.flag own)
    (hwithin : doc.InNode node own)
    (hpatch : Edit.patch source own (doc.first node) (doc.past node) =
      renderScope doc source node (parent.sameNode body) mode) :
    ∃ o e, Planned doc source body node parent mode o e := by
  refine ⟨own, [], hwalk, extra_quiet hk mode, hwithin, Edit.allWithin_nil _ _, ?_⟩
  rw [List.append_nil]
  exact hpatch

/-! ### The children together -/

/-- Each child has its edits in every mode in which it may be walked. -/
def PlannedBelow (doc : Document) (source : MappedText) (body node : SyntaxTree)
    (own extra : SyntaxTree → NameMode → List Edit) : Prop :=
  ∀ child ∈ node.children, ∀ mode, mode = .off ∨ child.exposes = false →
    Planned doc source body child node mode (own child mode) (extra child mode)

section Below

variable {own extra : SyntaxTree → NameMode → List Edit} {modeOf : SyntaxTree → NameMode}
  {items : List SyntaxTree} {lo hi : Nat} {flag : Bool}

theorem PlannedBelow.walkAll (h : PlannedBelow doc source body node own extra)
    (hmode : ∀ child ∈ node.constructs, modeOf child = .off ∨ child.exposes = false)
    (hflag : ∀ child ∈ node.constructs, (modeOf child).flag = flag) :
    (NotebookCell.walkAll (walked doc body node)).Plans flag
      (node.constructs.flatMap fun child => own child (modeOf child)) := by
  rw [walked, walkAll_map]
  apply runs_forM
  intro child hc
  have hwalk := (h child (SyntaxTree.mem_children_of_mem_constructs hc) _ (hmode child hc)).walk
  rw [hflag child hc] at hwalk
  exact hwalk

theorem PlannedBelow.over_items (h : PlannedBelow doc source body node own extra)
    (hrow : doc.Row lo hi items) (hitems : ∀ child ∈ items, child ∈ node.children)
    (hmode : ∀ child ∈ items, modeOf child = .off ∨ child.exposes = false) :
    doc.Over items (fun child => own child (modeOf child) ++ extra child (modeOf child))
      ((items.flatMap fun child => own child (modeOf child)) ++
        items.flatMap fun child => extra child (modeOf child)) := by
  have hplanned := fun child hc => h child (hitems child hc) _ (hmode child hc)
  exact (Document.over_flatMap hrow fun child hc => (hplanned child hc).own_within).append
    (Document.over_flatMap hrow fun child hc => (hplanned child hc).extra_within)

/-- Edits over the children that are rendered make their renderings. -/
theorem PlannedBelow.patch_eq (h : PlannedBelow doc source body node own extra)
    (hdeep : node.sameNode body = false) (hrow : doc.Row lo hi items)
    (hitems : ∀ child ∈ items, child ∈ node.children)
    (hmode : ∀ child ∈ items, modeOf child = .off ∨ child.exposes = false) {edits : List Edit}
    (hover : doc.Over items
      (fun child => own child (modeOf child) ++ extra child (modeOf child)) edits) :
    Edit.patch source edits lo hi = Piece.splice source lo hi
      (doc.pieces (fun child => renderScope doc source child false (modeOf child)) items) := by
  apply hover.patch_eq hrow source
  intro child hc
  have hpatch := (h child (hitems child hc) _ (hmode child hc)).patch
  rw [hdeep] at hpatch
  exact hpatch

theorem PlannedBelow.extra_nil (h : PlannedBelow doc source body node own extra)
    (hitems : ∀ child ∈ items, child ∈ node.children)
    (hmode : ∀ child ∈ items, modeOf child = .off ∨ child.exposes = false)
    (hquiet : ∀ child ∈ items, modeOf child = (modeOf child).inner) :
    (items.flatMap fun child => extra child (modeOf child)) = [] := by
  rw [List.flatMap_eq_nil_iff]
  intro child hc
  exact (h child (hitems child hc) _ (hmode child hc)).extra_eq_nil (hquiet child hc)

end Below

end NotebookCell
