import NotebookCell.Proofs.Cell.Provenance
import NotebookCell.Proofs.Edit.Templates
import NotebookCell.Proofs.Hidden.Bodies
import NotebookCell.Proofs.Hidden.Imports
import NotebookCell.Proofs.Hidden.Scope

/-!
# Runs on two texts that look alike

A pass that needs no more than a view plans the same edits for two texts with one outline, and it ends
alike on them.
-/

namespace NotebookCell

open Planner

/-! ### Ends of passes -/

def ParseError.withoutPlace : ParseError → ParseError
  | .fault found => .fault { found with place := none }
  | .tree reason => .tree reason

def PassError.withoutPlace : PassError → PassError
  | .parse error => .parse error.withoutPlace
  | error => error

/-- How a pass ends, apart from the text that it gives. -/
def passEnd (result : Except PassError MappedText) : Except PassError Unit :=
  (result.map fun _ => ()).mapError PassError.withoutPlace

/-- A document with a tree that is not flagged, in which nodes are nested and what is read of the body
is in tokens. -/
structure Readable (source : MappedText) (tree : SyntaxTree) : Prop where
  unflagged : tree.info.hasError = false
  nested : ∀ node ∈ tree.nodes, (Document.ofTree source.chars tree).Nested node
  legible : ∀ body, (Document.ofTree source.chars tree).wrappedBody source = .ok body →
    ∀ node ∈ body.seen, node.Legible

/-- What can be seen is the same in both. -/
structure LookAlike (source₁ source₂ : MappedText) (tree₁ tree₂ : SyntaxTree) : Prop where
  readable₁ : Readable source₁ tree₁
  readable₂ : Readable source₂ tree₂
  length : source₁.length = source₂.length
  outline : (Document.ofTree source₁.chars tree₁).outline source₁ =
    (Document.ofTree source₂.chars tree₂).outline source₂

/-- The plan does not ask for more than a view has. -/
def Unaware (plan : Document → SyntaxTree → Planner Unit) : Prop :=
  ∀ doc view body, IsView doc body view → body.kind = "statement_block" →
    Mirrors (fun _ => True) Eq (plan doc body) (plan view (body.outline doc))

theorem unaware_planImports : Unaware planImports := fun _ _ _ h _ =>
  mirrors_planImports h ⟨⟨fun _ _ _ => trivial, fun _ _ _ => trivial⟩, fun _ _ _ _ _ => trivial⟩

theorem unaware_planScope : Unaware planScope := fun _ _ _ h hk =>
  mirrors_planScope h ⟨⟨fun _ _ _ => trivial, fun _ _ _ => trivial⟩, fun _ _ _ _ _ _ => trivial,
    fun _ _ _ _ _ _ _ _ => trivial⟩ hk

section One

variable {source : MappedText} {tree body : SyntaxTree} {view : Document}

theorem Readable.isView (h : Readable source tree)
    (hbody : (Document.ofTree source.chars tree).wrappedBody source = .ok body)
    (hview : (Document.ofTree source.chars tree).outline source = view) :
    IsView (Document.ofTree source.chars tree) body view where
  table := rfl
  nested node hn := h.nested node (SyntaxTree.nodes_trans (mem_nodes_of_wrappedBody hbody) hn)
  legible := h.legible body hbody
  text := by
    rw [← hview, Document.outline, hbody]
    rfl
  offsets := by
    rw [← hview]
    rfl

theorem Readable.wrappedBody_outline (h : Readable source tree)
    (hview : (Document.ofTree source.chars tree).outline source = view) :
    view.wrappedBody source = ((Document.ofTree source.chars tree).wrappedBody source).map
      (SyntaxTree.outline (Document.ofTree source.chars tree)) := by
  rw [← hview]
  exact wrappedBody_view rfl h.nested rfl rfl rfl

theorem Readable.read_eq (h : Readable source tree) :
    Document.read source tree = .ok (Document.ofTree source.chars tree) := by
  rw [Document.read, h.unflagged, if_neg Bool.false_ne_true]

theorem Readable.plannedEdits_eq (h : Readable source tree) {plan : Document → SyntaxTree → Planner Unit}
    (hbody : (Document.ofTree source.chars tree).wrappedBody source = .ok body) :
    plannedEdits plan source tree =
      ((plan (Document.ofTree source.chars tree) body).run.run {}).2.edits := by
  simp only [plannedEdits, h.read_eq, hbody]

theorem Readable.editBody_eq (h : Readable source tree) {plan : Document → SyntaxTree → Planner Unit}
    (hbody : (Document.ofTree source.chars tree).wrappedBody source = .ok body) :
    editBody plan source tree = carryOut source (plan (Document.ofTree source.chars tree) body) := by
  simp only [editBody, h.read_eq, hbody]

end One

theorem wrappedBody_withoutPlace (doc : Document) (source source' : MappedText) :
    (doc.wrappedBody source).mapError ParseError.withoutPlace =
      (doc.wrappedBody source').mapError ParseError.withoutPlace := by
  have hblock : ∀ expression, (doc.blockOf source expression).mapError ParseError.withoutPlace =
      (doc.blockOf source' expression).mapError ParseError.withoutPlace := by
    intro expression
    unfold Document.blockOf
    split
    · rfl
    · cases ParseError.ofTree (doc.start expression) <;> rfl
  unfold Document.wrappedBody
  split
  · split
    · cases ParseError.ofTree (_ >>= unparenthesized _) with
      | error e => rfl
      | ok expression => exact hblock expression
    · rfl
  · cases ParseError.ofTree (doc.start _) <;> rfl
  · rfl

theorem carryOut_alike {source₁ source₂ : MappedText} {plan₁ plan₂ : Planner Unit}
    (hlength : source₁.length = source₂.length) (hrun : plan₁.run.run {} = plan₂.run.run {}) :
    ((carryOut source₁ plan₁).map fun _ => ()) = (carryOut source₂ plan₂).map fun _ => () := by
  have hsize : (EditBuffer.ofText source₁).size = (EditBuffer.ofText source₂).size := by
    rw [EditBuffer.size_ofText, EditBuffer.size_ofText, hlength]
  simp only [carryOut, hrun]
  obtain ⟨outcome, state⟩ := plan₂.run.run {}
  have hmade := EditBuffer.applyAll_size state.edits hsize
  simp only
  generalize (EditBuffer.ofText source₁).applyAll state.edits = made₁ at hmade ⊢
  generalize (EditBuffer.ofText source₂).applyAll state.edits = made₂ at hmade ⊢
  cases made₁ with
  | error e =>
    cases made₂ with
    | error e' =>
      cases hmade
      rfl
    | ok buffer' => cases hmade
  | ok buffer =>
    cases made₂ with
    | error e' => cases hmade
    | ok buffer' => cases outcome <;> rfl

theorem Planner.Mirrors.run_eq {P : Edit → Prop} {plan other : Planner Unit}
    (h : Mirrors P Eq plan other) : plan.run.run {} = other.run.run {} := by
  obtain ⟨hsame, _, hend⟩ := h {} (List.forall_mem_nil _)
  refine Prod.ext ?_ hsame
  generalize (plan.run.run {}).1 = outcome at hend
  generalize (other.run.run {}).1 = outcome' at hend
  cases outcome <;> cases outcome' <;> first | exact hend.elim | exact congrArg _ hend

theorem Planner.Mirrors.planned {P : Edit → Prop} {plan other : Planner Unit}
    (h : Mirrors P Eq plan other) : ∀ edit ∈ (plan.run.run {}).2.edits, P edit :=
  (h {} (List.forall_mem_nil _)).2.1

/-! ### Two runs -/

/-- Both runs plan the same edits and end alike. -/
structure RunAlike (plan : Document → SyntaxTree → Planner Unit) (source₁ source₂ : MappedText)
    (tree₁ tree₂ : SyntaxTree) : Prop where
  planned : plannedEdits plan source₁ tree₁ = plannedEdits plan source₂ tree₂
  ended : passEnd (editBody plan source₁ tree₁) = passEnd (editBody plan source₂ tree₂)

variable {source₁ source₂ : MappedText} {tree₁ tree₂ body : SyntaxTree}

/-- In both documents the same body is found, as far as it can be seen, or the same fault. -/
theorem LookAlike.wrappedBody_alike (h : LookAlike source₁ source₂ tree₁ tree₂) :
    (((Document.ofTree source₁.chars tree₁).wrappedBody source₁).map
        (SyntaxTree.outline (Document.ofTree source₁.chars tree₁))).mapError ParseError.withoutPlace =
      (((Document.ofTree source₂.chars tree₂).wrappedBody source₂).map
        (SyntaxTree.outline (Document.ofTree source₂.chars tree₂))).mapError
          ParseError.withoutPlace := by
  rw [← h.readable₁.wrappedBody_outline rfl, ← h.readable₂.wrappedBody_outline h.outline.symm]
  exact wrappedBody_withoutPlace _ source₁ source₂

theorem LookAlike.exists_body (h : LookAlike source₁ source₂ tree₁ tree₂)
    (hbody : (Document.ofTree source₁.chars tree₁).wrappedBody source₁ = .ok body) :
    ∃ other, (Document.ofTree source₂.chars tree₂).wrappedBody source₂ = .ok other ∧
      other.outline (Document.ofTree source₂.chars tree₂) =
        body.outline (Document.ofTree source₁.chars tree₁) := by
  have halike := h.wrappedBody_alike
  rw [hbody] at halike
  cases hother : (Document.ofTree source₂.chars tree₂).wrappedBody source₂ with
  | error e =>
    rw [hother] at halike
    cases halike
  | ok other =>
    rw [hother] at halike
    exact ⟨other, rfl, (Except.ok.inj halike).symm⟩

theorem LookAlike.runAlike (h : LookAlike source₁ source₂ tree₁ tree₂)
    {plan : Document → SyntaxTree → Planner Unit} (hplan : Unaware plan) :
    RunAlike plan source₁ source₂ tree₁ tree₂ := by
  cases hbody : (Document.ofTree source₁.chars tree₁).wrappedBody source₁ with
  | error e =>
    have halike := h.wrappedBody_alike
    rw [hbody] at halike
    cases hother : (Document.ofTree source₂.chars tree₂).wrappedBody source₂ with
    | ok other =>
      rw [hother] at halike
      cases halike
    | error e' =>
      rw [hother] at halike
      constructor
      · simp only [plannedEdits, h.readable₁.read_eq, h.readable₂.read_eq, hbody, hother]
      · simp only [editBody, h.readable₁.read_eq, h.readable₂.read_eq, hbody, hother]
        exact congrArg (fun e => Except.error (PassError.parse e)) (Except.error.inj halike)
  | ok body =>
    obtain ⟨other, hother, houtline⟩ := h.exists_body hbody
    have hview := h.readable₁.isView hbody rfl
    have hview' := h.readable₂.isView hother h.outline.symm
    have hrun := (hplan _ _ _ hview (kind_of_wrappedBody hbody)).run_eq
    have hrun' := (hplan _ _ _ hview' (kind_of_wrappedBody hother)).run_eq
    rw [houtline] at hrun'
    have hsame := hrun.trans hrun'.symm
    constructor
    · rw [h.readable₁.plannedEdits_eq hbody, h.readable₂.plannedEdits_eq hother, hsame]
    · rw [h.readable₁.editBody_eq hbody, h.readable₂.editBody_eq hother, passEnd, passEnd,
        carryOut_alike h.length hsame]

theorem RunAlike.exists_ok {plan : Document → SyntaxTree → Planner Unit}
    (h : RunAlike plan source₁ source₂ tree₁ tree₂) {out : MappedText}
    (hout : editBody plan source₁ tree₁ = .ok out) :
    ∃ other, editBody plan source₂ tree₂ = .ok other := by
  have hended := h.ended
  rw [hout] at hended
  cases hother : editBody plan source₂ tree₂ with
  | error e =>
    rw [hother] at hended
    cases hended
  | ok other => exact ⟨other, rfl⟩

end NotebookCell
