import NotebookCell.Proofs.Import.Rewriting
import NotebookCell.Proofs.Pass.Runs

/-!
# Bindings of an import

The walk plans for a binding in two places: default bindings get their edits at the clause, and all
others where the walk meets them.
-/

namespace NotebookCell

open Planner

variable {doc : Document} {source : MappedText} {binding : SyntaxTree}

def defaultEdits (doc : Document) (binding : SyntaxTree) : List Edit :=
  if binding.kind == "identifier" then
    [.insertBefore (doc.first binding) (.plain "_:\x7bdefault:".toList),
      .insertAfter (doc.past binding) (.plain ['}'])]
  else []

def aliasEdits (doc : Document) (binding : SyntaxTree) : List Edit :=
  match binding.child? "name", binding.child? "alias" with
  | some name, some localName => [.replace (doc.past name) (doc.first localName) (.plain [':'])]
  | _, _ => []

def bindingEdits (doc : Document) (binding : SyntaxTree) : List Edit :=
  if binding.kind == "import_specifier" then
    .insertBefore (doc.first binding) (.plain "_:\x7b".toList) ::
      (aliasEdits doc binding ++ [.insertAfter (doc.past binding) (.plain ['}'])])
  else if binding.kind == "namespace_import" then
    match binding.constructs.getLast? with
    | some localName => [.replace (doc.first binding) (doc.first localName) (.plain "_:".toList)]
    | none => []
  else []

def importedKinds : List String := ["identifier", "namespace_import", "import_specifier"]

theorem bindingEdits_named (hk : binding.kind = "import_specifier") :
    bindingEdits doc binding = [.insertBefore (doc.first binding) (.plain "_:\x7b".toList)] ++
      (aliasEdits doc binding ++ [.insertAfter (doc.past binding) (.plain ['}'])]) := by
  rw [bindingEdits, hk]
  rfl

theorem bindingEdits_starred (hk : binding.kind = "namespace_import") {localName : SyntaxTree}
    (hlocal : binding.constructs.getLast? = some localName) :
    bindingEdits doc binding =
      [.replace (doc.first binding) (doc.first localName) (.plain "_:".toList)] := by
  rw [bindingEdits, hk, hlocal]
  rfl

theorem bindingEdits_default (hk : binding.kind = "identifier") : bindingEdits doc binding = [] := by
  rw [bindingEdits, hk]
  rfl

/-! ### Bindings by name -/

theorem alias_between (hordered : doc.Ordered binding) {name localName : SyntaxTree}
    (hname : binding.child? "name" = some name) (hlocal : binding.child? "alias" = some localName) :
    doc.Covers name ∧ doc.Covers localName ∧ doc.first binding < doc.past name ∧
      doc.first localName < doc.past binding := by
  obtain ⟨hcovName, hloName, _⟩ := hordered.mem (SyntaxTree.mem_children_of_child? hname)
  obtain ⟨hcovLocal, _, hhiLocal⟩ := hordered.mem (SyntaxTree.mem_children_of_child? hlocal)
  have hltName := hcovName.2.2
  have hltLocal := hcovLocal.2.2
  exact ⟨hcovName, hcovLocal, by omega, by omega⟩

theorem aliasEdits_of_none (h : binding.child? "alias" = none) : aliasEdits doc binding = [] := by
  unfold aliasEdits
  rw [h]
  split
  · rename_i hsome
    cases hsome
  · rfl

theorem namedText_of_none (h : binding.child? "alias" = none) :
    namedText doc source binding = source.segment (doc.first binding) (doc.past binding) := by
  unfold namedText
  rw [h]
  split
  · rename_i hsome
    cases hsome
  · rfl

theorem exists_alias (hshaped : doc.ImportShaped binding) (hk : binding.kind = "import_specifier")
    {localName : SyntaxTree} (hlocal : binding.child? "alias" = some localName) :
    ∃ name, binding.child? "name" = some name ∧ doc.past name < doc.first localName := by
  have hany := hshaped.aliased hk localName hlocal
  obtain ⟨name, hname, hlt⟩ := (Option.any_eq_true _ _).mp hany
  exact ⟨name, hname, of_decide_eq_true hlt⟩

theorem aliasEdits_within (hshaped : doc.ImportShaped binding)
    (hk : binding.kind = "import_specifier") :
    Edit.AllWithin (doc.first binding + 1) (doc.past binding) (aliasEdits doc binding) := by
  cases hlocal : binding.child? "alias" with
  | none =>
    rw [aliasEdits_of_none hlocal]
    exact Edit.allWithin_nil _ _
  | some localName =>
    obtain ⟨name, hname, hgap⟩ := exists_alias hshaped hk hlocal
    obtain ⟨_, _, hlo, hhi⟩ := alias_between hshaped.ordered hname hlocal
    simp only [aliasEdits, hname, hlocal]
    apply Edit.allWithin_singleton
    simp only [Edit.Within]
    omega

theorem patch_aliasEdits (hcov : doc.Covers binding) (hshaped : doc.ImportShaped binding)
    (hk : binding.kind = "import_specifier") (source : MappedText) :
    Edit.patch source (aliasEdits doc binding) (doc.first binding) (doc.past binding) =
      namedText doc source binding := by
  cases hlocal : binding.child? "alias" with
  | none =>
    rw [aliasEdits_of_none hlocal, namedText_of_none hlocal]
    exact Edit.patch_nil source (Nat.le_of_lt hcov.2.2)
  | some localName =>
    obtain ⟨name, hname, hgap⟩ := exists_alias hshaped hk hlocal
    obtain ⟨_, _, hlo, hhi⟩ := alias_between hshaped.ordered hname hlocal
    simp only [aliasEdits, namedText, hname, hlocal]
    exact Edit.patch_replaced source (Nat.le_of_lt hlo) hgap (Nat.le_of_lt hhi) [':']

theorem runs_planNamedBinding (hcov : doc.Covers binding) (hshaped : doc.ImportShaped binding)
    (hk : binding.kind = "import_specifier") (flag : Bool) :
    (planNamedBinding doc binding).Plans flag (bindingEdits doc binding) := by
  have hafter := runs_after hcov ['}'] flag
  rw [bindingEdits_named hk]
  unfold planNamedBinding
  refine Plans.seq (runs_before hcov "_:\x7b".toList flag) ?_
  cases hlocal : binding.child? "alias" with
  | none =>
    rw [aliasEdits_of_none hlocal]
    exact Plans.seq (runs_pure () flag) hafter
  | some localName =>
    obtain ⟨name, hname, hgap⟩ := exists_alias hshaped hk hlocal
    obtain ⟨hcovName, hcovLocal, _⟩ := alias_between hshaped.ordered hname hlocal
    have hrest := Runs.replace_then hcovName.stop_eq hcovLocal.start_eq [':'] hafter
    have hall : Runs (do
        let name ← need binding "name"
        between (← ask (doc.stop name)) (← ask (doc.start localName)) [':']
        after doc binding ['}']) flag () ([] ++ _) flag := Runs.bind (runs_need hname flag) hrest
    simp only [aliasEdits, hname, hlocal]
    exact hall

/-- What is put around a binding by name may be put there last. -/
theorem agree_named (hshaped : doc.ImportShaped binding)
    (hk : binding.kind = "import_specifier") (lo hi : Nat) :
    Edit.Agree lo hi (bindingEdits doc binding)
      (aliasEdits doc binding ++ [.insertBefore (doc.first binding) (.plain "_:\x7b".toList),
        .insertAfter (doc.past binding) (.plain ['}'])]) := by
  have hfront : Edit.AllWithin (doc.first binding) (doc.first binding + 1)
      [.insertBefore (doc.first binding) (.plain "_:\x7b".toList)] := by
    apply Edit.allWithin_singleton
    simp only [Edit.Within]
    omega
  have hcomm : Edit.Agree lo hi
      ([.insertBefore (doc.first binding) (.plain "_:\x7b".toList)] ++ aliasEdits doc binding)
      (aliasEdits doc binding ++
        [.insertBefore (doc.first binding) (.plain "_:\x7b".toList)]) :=
    hfront.agree_comm (aliasEdits_within hshaped hk) (Or.inl (Nat.le_refl _))
  have hall := hcomm.append
    (Edit.agree_refl lo hi [.insertAfter (doc.past binding) (.plain ['}'])])
  rw [List.append_assoc, List.append_assoc] at hall
  rw [bindingEdits_named hk]
  exact hall

/-! ### Namespaces -/

theorem exists_localName (hshaped : doc.ImportShaped binding)
    (hk : binding.kind = "namespace_import") :
    ∃ localName, binding.constructs.getLast? = some localName ∧ doc.Covers localName ∧
      doc.first binding < doc.first localName ∧ doc.first localName < doc.past binding := by
  obtain ⟨localName, hlocal, hlt⟩ := (Option.any_eq_true _ _).mp (hshaped.starred hk)
  have hin := SyntaxTree.mem_children_of_mem_constructs (List.mem_of_getLast? hlocal)
  obtain ⟨hcov, _, hhi⟩ := hshaped.ordered.mem hin
  have hltLocal := hcov.2.2
  exact ⟨localName, hlocal, hcov, of_decide_eq_true hlt, by omega⟩

theorem runs_planNamespaceBinding (hcov : doc.Covers binding) (hshaped : doc.ImportShaped binding)
    (hk : binding.kind = "namespace_import") (flag : Bool) :
    (planNamespaceBinding doc binding).Plans flag (bindingEdits doc binding) := by
  obtain ⟨localName, hlocal, hcovLocal, _⟩ := exists_localName hshaped hk
  rw [bindingEdits_starred hk hlocal]
  unfold planNamespaceBinding
  simp only [hlocal]
  exact runs_replace hcov.start_eq hcovLocal.start_eq "_:".toList flag

/-! ### All bindings -/

theorem defaultEdits_within (hcov : doc.Covers binding) :
    doc.InNode binding (defaultEdits doc binding) := by
  unfold defaultEdits
  split
  · exact hcov.around_within _ _
  · exact Edit.allWithin_nil _ _

theorem bindingEdits_within (hcov : doc.Covers binding) (hshaped : doc.ImportShaped binding)
    (hk : binding.kind ∈ importedKinds) : doc.InNode binding (bindingEdits doc binding) := by
  simp only [importedKinds, List.mem_cons, List.not_mem_nil, or_false] at hk
  rcases hk with hk | hk | hk
  · rw [bindingEdits_default hk]
    exact Edit.allWithin_nil _ _
  · obtain ⟨localName, hlocal, _, hlo, hhi⟩ := exists_localName hshaped hk
    rw [bindingEdits_starred hk hlocal]
    apply Edit.allWithin_singleton
    simp only [Edit.Within]
    omega
  · have hall := hcov.around_within (.plain "_:\x7b".toList) (.plain ['}'])
    have halias := (aliasEdits_within hshaped hk).mono (Nat.le_succ _) (Nat.le_refl _)
    rw [bindingEdits_named hk]
    intro edit he
    rcases List.mem_append.mp he with he | he
    · exact hall edit (List.mem_cons.mpr (Or.inl (List.mem_singleton.mp he)))
    · rcases List.mem_append.mp he with he | he
      · exact halias edit he
      · exact hall edit (List.mem_cons_of_mem _ he)

theorem patch_binding (hcov : doc.Covers binding) (hshaped : doc.ImportShaped binding)
    (hk : binding.kind ∈ importedKinds) (source : MappedText) :
    Edit.patch source (defaultEdits doc binding ++ bindingEdits doc binding) (doc.first binding)
      (doc.past binding) = bindingText doc source binding := by
  have hlt := hcov.2.2
  simp only [importedKinds, List.mem_cons, List.not_mem_nil, or_false] at hk
  rcases hk with hk | hk | hk
  · have hpatch := Edit.patch_around source [] (.plain "_:\x7bdefault:".toList) (.plain ['}']) hlt
    rw [Edit.patch_nil source (Nat.le_of_lt hlt)] at hpatch
    rw [bindingEdits_default hk, defaultEdits, bindingText, hk]
    exact hpatch
  · obtain ⟨localName, hlocal, _, hlo, hhi⟩ := exists_localName hshaped hk
    have hpatch := Edit.patch_replaced source (Nat.le_refl (doc.first binding)) hlo
      (Nat.le_of_lt hhi) "_:".toList
    rw [MappedText.segment_self, List.nil_append] at hpatch
    rw [bindingEdits_starred hk hlocal, defaultEdits, bindingText, hk, hlocal]
    exact hpatch
  · have hpatch := Edit.patch_around source (aliasEdits doc binding) (.plain "_:\x7b".toList)
      (.plain ['}']) hlt
    rw [patch_aliasEdits hcov hshaped hk,
      ← (agree_named hshaped hk _ _).patch_eq source] at hpatch
    rw [defaultEdits, bindingText, hk]
    exact hpatch

end NotebookCell
