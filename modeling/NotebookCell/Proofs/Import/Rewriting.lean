import Mathlib.Tactic.MkIffOfInductiveProp
import NotebookCell.Pass.Imports
import NotebookCell.Proofs.Edit.Parts

/-!
# What the import pass means

The text that stands for an import, from those of its bindings and of its specifier. All other text
stays.
-/

namespace NotebookCell

/-- The imports that run with the node, those in functions left out. -/
def SyntaxTree.imports (tree : SyntaxTree) : List SyntaxTree :=
  tree.fold fun node children =>
    if node.kind == "import_statement" then [node]
    else if functionDeclarationKinds.contains node.kind || scopeKinds.contains node.kind then []
    else (children.filter fun child => child.1.isConstruct).flatMap Prod.snd

def SyntaxTree.specifier (node : SyntaxTree) : Option SyntaxTree :=
  match node.child? "source" with
  | some specifier => some specifier
  | none =>
    (node.constructs.find? fun child => child.kind == "from_clause").bind fun clause =>
      clause.child? "source"

section Texts

variable (doc : Document) (source : MappedText)

/-- The text of `a` or `a as b` without what is put around it. -/
def namedText (binding : SyntaxTree) : MappedText :=
  match binding.child? "name", binding.child? "alias" with
  | some name, some localName =>
    source.segment (doc.first binding) (doc.past name) ++
      source.inPlace (doc.past name) (doc.first localName) [':'] ++
      source.segment (doc.first localName) (doc.past binding)
  | _, _ => source.segment (doc.first binding) (doc.past binding)

def bindingText (binding : SyntaxTree) : MappedText :=
  if binding.kind == "import_specifier" then
    .ofString "_:\x7b" ++ namedText doc source binding ++ .ofString "\x7d"
  else if binding.kind == "namespace_import" then
    match binding.constructs.getLast? with
    | some localName =>
      source.inPlace (doc.first binding) (doc.first localName) "_:".toList ++
        source.segment (doc.first localName) (doc.past binding)
    | none => source.segment (doc.first binding) (doc.past binding)
  else
    .ofString "_:\x7bdefault:" ++ source.segment (doc.first binding) (doc.past binding) ++
      .ofString "\x7d"

/-- The text from `place` up to the specifier at `stop`: every binding with a text in front of it,
which is a comma from the second on, and then `opening`. -/
def joinedText (stop : Nat) (opening : List Char) :
    (place : Nat) → (front : List Char) → List SyntaxTree → MappedText
  | place, _, [] => source.inPlace place stop opening
  | place, front, binding :: rest =>
    source.inPlace place (doc.first binding) front ++ bindingText doc source binding ++
      joinedText stop opening (doc.past binding) [','] rest

def importOpening (node : SyntaxTree) : List Char :=
  if (importBindings node).isEmpty then ("await " ++ importName ++ "(").toList
  else ("\x7d = \x7b_:await " ++ importName ++ "(").toList

def importClosing (node : SyntaxTree) : List Char :=
  if (importBindings node).isEmpty then ");".toList else ")\x7d;".toList

def importText (node : SyntaxTree) : MappedText :=
  match node.specifier with
  | some specifier =>
    joinedText doc source (doc.first specifier) (importOpening node) (doc.first node)
        "var \x7b".toList (importBindings node) ++
      source.segment (doc.first specifier) (doc.past specifier) ++
      source.inPlace (doc.past specifier) (doc.past node) (importClosing node)
  | none => source.segment (doc.first node) (doc.past node)

end Texts

/-! ### Well-formed imports -/

namespace Document

/-- Nodes stand one behind the other between `lo` and `hi`, with characters around each of them. -/
def Spread (doc : Document) (lo hi : Nat) : List SyntaxTree → Prop
  | [] => lo < hi
  | node :: nodes => lo < doc.first node ∧ Spread doc (doc.past node) hi nodes

/-- The kinds of node that an import is made of, each with the kind that holds it. -/
def importPlaces : List (String × String) :=
  [("import_clause", "import_statement"), ("namespace_import", "import_clause"),
    ("named_imports", "import_clause"), ("import_specifier", "named_imports")]

@[mk_iff] structure IsImport (doc : Document) (node : SyntaxTree) : Prop where
  specified : node.specifier.isSome
  spread : ∀ specifier ∈ node.specifier,
    doc.Spread (doc.first node) (doc.first specifier) (importBindings node)
  closed : ∀ child ∈ node.constructs, child.imports = []

/-- The children of a node stand in order, and they are what its kind needs. -/
@[mk_iff] structure ImportShaped (doc : Document) (node : SyntaxTree) : Prop where
  ordered : doc.Ordered node
  held : ∀ child ∈ node.constructs, ∀ place ∈ importPlaces, child.kind = place.1 →
    node.kind = place.2
  statement : node.kind = "import_statement" → doc.IsImport node
  clause : node.kind = "import_clause" → ∀ child ∈ node.constructs,
    child.kind ∈ ["identifier", "namespace_import", "named_imports"]
  aliased : node.kind = "import_specifier" → ∀ localName ∈ node.child? "alias",
    (node.child? "name").any fun name => doc.past name < doc.first localName
  starred : node.kind = "namespace_import" →
    node.constructs.getLast?.any fun localName => doc.first node < doc.first localName

/-- A node covers characters, all nodes in it have their shape, and an import that ends with its
specifier is not followed at once by another one. -/
@[mk_iff] structure WithImports (doc : Document) (node : SyntaxTree) : Prop where
  covers : doc.Covers node
  shaped : ∀ part ∈ node.nodes, doc.ImportShaped part
  apart : ∀ a ∈ node.imports, ∀ b ∈ node.imports, ∀ specifier ∈ a.specifier,
    doc.past specifier = doc.past a → doc.past a ≠ doc.first b

section Decide

variable (doc : Document) (node : SyntaxTree)

instance decidableSpread (lo hi : Nat) : (nodes : List SyntaxTree) → Decidable (doc.Spread lo hi nodes)
  | [] => inferInstanceAs (Decidable (lo < hi))
  | node :: nodes =>
    have := decidableSpread (doc.past node) hi nodes
    inferInstanceAs (Decidable (_ ∧ _))

instance : Decidable (doc.IsImport node) := decidable_of_iff' _ (isImport_iff doc node)

instance : Decidable (doc.ImportShaped node) := decidable_of_iff' _ (importShaped_iff doc node)

instance : Decidable (doc.WithImports node) := decidable_of_iff' _ (withImports_iff doc node)

end Decide

end Document

end NotebookCell
