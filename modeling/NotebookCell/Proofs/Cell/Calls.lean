import NotebookCell.Cell.Transpile

/-!
# The steps of a call

Transpiling a cell takes an id, works on the cell without looking at the history, and adds the record
if there is one.
-/

namespace NotebookCell

/-- The record of a cell that has its id, or what went wrong, and the trees that are left. -/
def recordOf (trees : TreeSource) (id : Nat) (code : String) (name : Option String) :
    Except PassError CellRecord × TreeSource :=
  let file : SourceFile := { id, name, text := code }
  let wrapped := wrapCell file.mapped id name
  let (tree, trees) := trees.next wrapped.chars
  match applyImportPass wrapped tree with
  | .error error => (.error error, trees)
  | .ok imported =>
    let (tree, trees) := trees.next imported.chars
    match applyScopePass imported tree with
    | .error error => (.error error, trees)
    | .ok moved => (.ok (CellRecord.ofSource id name (finishedSource id moved)), trees)

def History.settle (history : History) : Except PassError CellRecord → History
  | .ok record => history.add record
  | .error _ => history

section Call

variable (trees : TreeSource) (history : History) (code : String) (name : Option String)

theorem transpileCell_steps :
    (transpileCell trees history code name).result =
        (recordOf trees history.nextId.1 code name).1 ∧
      (transpileCell trees history code name).trees =
        (recordOf trees history.nextId.1 code name).2 ∧
      (transpileCell trees history code name).history =
        history.nextId.2.settle (recordOf trees history.nextId.1 code name).1 := by
  simp only [transpileCell, recordOf]
  split
  · simp_all [History.settle]
  · split
    · simp_all [History.settle]
    · simp_all [History.settle]

theorem transpileCell_history :
    (transpileCell trees history code name).history =
      history.nextId.2.settle (transpileCell trees history code name).result := by
  obtain ⟨hresult, -, hhistory⟩ := transpileCell_steps trees history code name
  rw [hhistory, hresult]

end Call

@[simp] theorem History.lastId_nextId (history : History) :
    history.nextId.2.lastId = history.lastId + 1 := rfl

@[simp] theorem History.lastId_settle (history : History) (outcome : Except PassError CellRecord) :
    (history.settle outcome).lastId = history.lastId := by
  cases outcome <;> rfl

theorem id_of_recordOf {trees : TreeSource} {id : Nat} {code : String} {name : Option String}
    {record : CellRecord} (h : (recordOf trees id code name).1 = .ok record) : record.id = id := by
  simp only [recordOf] at h
  split at h
  · cases h
  · split at h
    · cases h
    · cases h
      rfl

end NotebookCell
