import NotebookCell.Proofs.Import.Pass
import NotebookCell.Proofs.Syntax.Layout

/-!
# How imports are spelled

An import binds names in four ways. What the pass makes of an import is spelled by its bindings and by
the specifier of its module alone.
-/

namespace NotebookCell

inductive ImportBinding where
  | standard (localName : List Char)
  | starred (localName : List Char)
  | named (name : List Char)
  | renamed (name localName : List Char)
deriving DecidableEq

namespace ImportBinding

def localName : ImportBinding → List Char
  | standard localName => localName
  | starred localName => localName
  | named name => name
  | renamed _ localName => localName

def target : ImportBinding → List Char
  | standard localName => "\x7bdefault:".toList ++ localName ++ ['}']
  | starred localName => localName
  | named name => '{' :: name ++ ['}']
  | renamed name localName => '{' :: name ++ ':' :: localName ++ ['}']

/-- The property that does so, in the pattern of all bindings. -/
def property (binding : ImportBinding) : List Char := "_:".toList ++ binding.target

end ImportBinding

/-- The object of which the pattern of all bindings is taken. -/
def awaitedModule (module : List Char) : List Char :=
  ("\x7b_:await " ++ importName ++ "(").toList ++ module ++ ")\x7d".toList

def importDeclaration (bindings : List ImportBinding) (module : List Char) : List Char :=
  "var \x7b".toList ++ Text.joinWith [','] (bindings.map ImportBinding.property) ++
    "\x7d = ".toList ++ awaitedModule module ++ [';']

namespace Document

def importBinding (doc : Document) (binding : SyntaxTree) : ImportBinding :=
  if binding.kind == "import_specifier" then
    match binding.child? "name", binding.child? "alias" with
    | some name, some localName => .renamed (doc.spelling name) (doc.spelling localName)
    | _, _ => .named (doc.spelling binding)
  else if binding.kind == "namespace_import" then
    .starred ((binding.constructs.getLast?.map doc.spelling).getD [])
  else .standard (doc.spelling binding)

def NamesReach (doc : Document) (binding : SyntaxTree) : Prop :=
  (binding.kind = "import_specifier" → ∀ name ∈ binding.child? "name",
      ∀ localName ∈ binding.child? "alias",
        doc.first name = doc.first binding ∧ doc.past localName = doc.past binding) ∧
    (binding.kind = "namespace_import" → ∀ localName ∈ binding.constructs.getLast?,
      doc.past localName = doc.past binding)

instance (doc : Document) (binding : SyntaxTree) : Decidable (doc.NamesReach binding) :=
  inferInstanceAs (Decidable ((_ → ∀ name ∈ binding.child? "name",
    ∀ localName ∈ binding.child? "alias", _) ∧ (_ → ∀ localName ∈ binding.constructs.getLast?, _)))

section Kinds

variable {doc : Document} {binding name localName : SyntaxTree}

theorem importBinding_standard (hk : binding.kind = "identifier") :
    doc.importBinding binding = .standard (doc.spelling binding) := by
  rw [importBinding, hk]
  rfl

theorem importBinding_starred (hk : binding.kind = "namespace_import")
    (hlocal : binding.constructs.getLast? = some localName) :
    doc.importBinding binding = .starred (doc.spelling localName) := by
  rw [importBinding, hk, hlocal]
  rfl

theorem importBinding_named (hk : binding.kind = "import_specifier")
    (hlocal : binding.child? "alias" = none) :
    doc.importBinding binding = .named (doc.spelling binding) := by
  rw [importBinding, hk, hlocal]
  cases binding.child? "name" <;> rfl

theorem importBinding_renamed (hk : binding.kind = "import_specifier")
    (hname : binding.child? "name" = some name) (hlocal : binding.child? "alias" = some localName) :
    doc.importBinding binding = .renamed (doc.spelling name) (doc.spelling localName) := by
  rw [importBinding, hk, hname, hlocal]
  rfl

end Kinds

end Document

variable {doc : Document} {source : MappedText} {node binding specifier : SyntaxTree}

/-! ### One import -/

theorem MappedText.chars_inPlace (source : MappedText) (lo hi : Nat) (chars : List Char) :
    (source.inPlace lo hi chars).chars = chars := MappedText.chars_ofChars _ _

theorem MappedText.chars_ofString (text : String) : (MappedText.ofString text).chars = text.toList :=
  MappedText.chars_ofChars _ _

section Spelled

variable (hsingle : ∀ c ∈ source, c.IsSingle) (hsource : doc.text = source.chars)

include hsingle hsource

theorem chars_namedText (hshaped : doc.ImportShaped binding) (hk : binding.kind = "import_specifier")
    (hreach : doc.NamesReach binding) :
    '{' :: (namedText doc source binding).chars ++ ['}'] = (doc.importBinding binding).target := by
  have hspelling := doc.spelling_eq hsingle hsource
  cases hlocal : binding.child? "alias" with
  | none =>
    rw [namedText_of_none hlocal, Document.importBinding_named hk hlocal, hspelling]
    rfl
  | some localName =>
    obtain ⟨name, hname, _⟩ := exists_alias hshaped hk hlocal
    obtain ⟨hfirst, hpast⟩ := hreach.1 hk name hname localName hlocal
    simp only [namedText, hname, hlocal]
    rw [Document.importBinding_renamed hk hname hlocal, ← hfirst, ← hpast]
    have htarget : (ImportBinding.renamed (doc.spelling name) (doc.spelling localName)).target =
        '{' :: doc.spelling name ++ ':' :: doc.spelling localName ++ ['}'] := rfl
    rw [htarget]
    simp only [MappedText.chars_append, MappedText.chars_inPlace, hspelling, List.cons_append,
      List.append_assoc, List.nil_append]

theorem chars_bindingText (hshaped : doc.ImportShaped binding) (hk : binding.kind ∈ importedKinds)
    (hreach : doc.NamesReach binding) :
    (bindingText doc source binding).chars = (doc.importBinding binding).property := by
  have hspelling := doc.spelling_eq hsingle hsource
  simp only [importedKinds, List.mem_cons, List.not_mem_nil, or_false] at hk
  rw [ImportBinding.property]
  rcases hk with hk | hk | hk
  · have htext : bindingText doc source binding = .ofString "_:\x7bdefault:" ++
        source.segment (doc.first binding) (doc.past binding) ++ .ofString "\x7d" := by
      rw [bindingText, hk]
      rfl
    rw [htext, Document.importBinding_standard hk, MappedText.chars_append, MappedText.chars_append,
      MappedText.chars_ofString, hspelling]
    rfl
  · obtain ⟨localName, hlocal, _⟩ := exists_localName hshaped hk
    have htext : bindingText doc source binding =
        source.inPlace (doc.first binding) (doc.first localName) "_:".toList ++
          source.segment (doc.first localName) (doc.past binding) := by
      rw [bindingText, hk, hlocal]
      rfl
    rw [htext, Document.importBinding_starred hk hlocal, ← hreach.2 hk localName hlocal,
      MappedText.chars_append, MappedText.chars_inPlace, hspelling]
    rfl
  · have htext : bindingText doc source binding =
        .ofString "_:\x7b" ++ namedText doc source binding ++ .ofString "\x7d" := by
      rw [bindingText, hk]
      rfl
    rw [← chars_namedText hsingle hsource hshaped hk hreach, htext, MappedText.chars_append,
      MappedText.chars_append, MappedText.chars_ofString]
    rfl

omit hsingle hsource in
theorem chars_joinedText {bindings : List SyntaxTree}
    (htext : ∀ b ∈ binding :: bindings,
      (bindingText doc source b).chars = (doc.importBinding b).property)
    (stop place : Nat) (opening front : List Char) :
    (joinedText doc source stop opening place front (binding :: bindings)).chars =
      front ++ Text.joinWith [','] ((binding :: bindings).map fun b =>
        (doc.importBinding b).property) ++ opening := by
  induction bindings generalizing binding place front with
  | nil =>
    simp only [joinedText, MappedText.chars_append, MappedText.chars_inPlace,
      htext binding List.mem_cons_self]
    rfl
  | cons next bindings ih =>
    have hrest := ih (fun b hb => htext b (List.mem_cons_of_mem binding hb)) (doc.past binding) [',']
    rw [joinedText, MappedText.chars_append, MappedText.chars_append, MappedText.chars_inPlace,
      htext binding List.mem_cons_self, hrest]
    simp only [List.map_cons, Text.joinWith_cons_cons, List.append_assoc]

theorem chars_importText (h : IsStatement doc node specifier) (hsome : importBindings node ≠ [])
    (hreach : ∀ b ∈ importBindings node, doc.NamesReach b) :
    (importText doc source node).chars =
      importDeclaration ((importBindings node).map doc.importBinding) (doc.spelling specifier) := by
  have htext : ∀ b ∈ importBindings node,
      (bindingText doc source b).chars = (doc.importBinding b).property := fun b hb =>
    chars_bindingText hsingle hsource (h.shaped_binding hb).1 (h.shaped_binding hb).2 (hreach b hb)
  obtain ⟨first, rest, hbindings⟩ := List.exists_cons_of_ne_nil hsome
  rw [hbindings] at htext
  rw [h.importText_eq, importOpening, importClosing, hbindings]
  delta importDeclaration awaitedModule
  simp only [List.map_map, MappedText.chars_append, MappedText.chars_inPlace, doc.spelling_eq hsingle hsource,
    chars_joinedText htext, List.isEmpty_cons, Bool.false_eq_true, if_false, List.append_assoc]
  rfl

end Spelled

/-! ### Single characters -/

section Single

open MappedText

variable (hsingle : ∀ c ∈ source, c.IsSingle)

include hsingle

theorem isSingle_namedText (binding : SyntaxTree) :
    ∀ c ∈ namedText doc source binding, c.IsSingle := by
  have hsegment := isSingle_segment hsingle
  unfold namedText
  split
  · exact isSingle_append (isSingle_append (hsegment _ _) (isSingle_ofChars _ _)) (hsegment _ _)
  · exact hsegment _ _

theorem isSingle_bindingText (binding : SyntaxTree) :
    ∀ c ∈ bindingText doc source binding, c.IsSingle := by
  have hsegment := isSingle_segment hsingle
  unfold bindingText
  split
  · exact isSingle_append (isSingle_append (isSingle_ofChars _ _) (isSingle_namedText hsingle binding))
      (isSingle_ofChars _ _)
  · split
    · split
      · exact isSingle_append (isSingle_ofChars _ _) (hsegment _ _)
      · exact hsegment _ _
    · exact isSingle_append (isSingle_append (isSingle_ofChars _ _) (hsegment _ _))
        (isSingle_ofChars _ _)

theorem isSingle_joinedText (stop : Nat) (opening : List Char) (place : Nat) (front : List Char)
    (bindings : List SyntaxTree) :
    ∀ c ∈ joinedText doc source stop opening place front bindings, c.IsSingle := by
  induction bindings generalizing place front with
  | nil => exact isSingle_ofChars _ _
  | cons binding bindings ih =>
    exact isSingle_append
      (isSingle_append (isSingle_ofChars _ _) (isSingle_bindingText hsingle binding)) (ih _ _)

theorem isSingle_importText (node : SyntaxTree) : ∀ c ∈ importText doc source node, c.IsSingle := by
  unfold importText
  split
  · exact isSingle_append (isSingle_append (isSingle_joinedText hsingle _ _ _ _ _)
      (isSingle_segment hsingle _ _)) (isSingle_ofChars _ _)
  · exact isSingle_segment hsingle _ _

theorem isSingle_imported (lo hi : Nat) (imports : List SyntaxTree) :
    ∀ c ∈ Piece.splice source lo hi (doc.pieces (importText doc source) imports), c.IsSingle := by
  apply isSingle_splice hsingle
  intro piece hpiece
  obtain ⟨node, _, rfl⟩ := List.mem_map.mp hpiece
  exact isSingle_importText hsingle node

end Single

/-! ### The plan of the pass -/

theorem exists_planImports {tree body : SyntaxTree} (hsingle : ∀ c ∈ source, c.IsSingle)
    (hk : body.kind = "statement_block")
    (hwf : (Document.ofTree source.chars tree).WithImports body) :
    ∃ edits, (planImports (Document.ofTree source.chars tree) body).Plans false edits ∧
      (∀ edit ∈ edits, edit.InRange source.length) ∧
      (Document.ofTree source.chars tree).Row 0 source.length body.imports ∧
      ((EditBuffer.ofText source).after edits).flush = Piece.splice source 0 source.length
        ((Document.ofTree source.chars tree).pieces
          (importText (Document.ofTree source.chars tree) source) body.imports) := by
  obtain ⟨hcov, hshaped, hapart⟩ := hwf
  have hend : (Document.ofTree source.chars tree).past body ≤ source.length := by
    rw [← MappedText.length_chars hsingle]
    exact hcov.past_le
  have hrow : (Document.ofTree source.chars tree).Row 0 source.length (body.imports ++ []) :=
    ((row_imports hcov hshaped).widen (Nat.zero_le _)).append hend
  rw [List.append_nil] at hrow
  have hall := fun node (hn : node ∈ body.imports) => isStatement_of_mem_imports hcov hshaped hn
  have hmade : ∀ edit ∈ body.imports.flatMap (importEdits (Document.ofTree source.chars tree)),
      edit.InRange source.length ∧ ∀ head, edit.onHead head = head := by
    intro edit he
    obtain ⟨node, hn, he⟩ := List.mem_flatMap.mp he
    obtain ⟨specifier, h⟩ := hall node hn
    exact h.importEdits_inRange (hrow.mem hn).2.2 edit he
  refine ⟨_, walk_imports hcov hshaped (by rw [hk]; decide) false, fun edit he => (hmade edit he).1,
    hrow, ?_⟩
  rw [EditBuffer.flush_after, foldl_onHead fun edit he => (hmade edit he).2, List.nil_append,
    ← remainder_imports hrow hall hapart]
  rfl

end NotebookCell
