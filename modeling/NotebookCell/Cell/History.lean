import NotebookCell.Cell.Wrapper

/-!
# The history of transpiled cells

A record keeps a transpiled cell, so that places in its code can be traced back. The history hands out
ids in order and stores records by id. With a limit, adding a record beyond it drops the record whose
id has been in the store for longest; storing a record under an id that is present replaces the record
and leaves the id where it is in the order.
-/

namespace NotebookCell

structure CellRecord where
  id : Int
  name : Option String
  source : MappedText
  code : String
deriving DecidableEq, Inhabited

def CellRecord.url (record : CellRecord) : String := sourceUrl record.id

def CellRecord.wrapper (record : CellRecord) : String := wrapperName record.id

def CellRecord.ofSource (id : Int) (name : Option String) (source : MappedText) : CellRecord :=
  { id, name, source, code := source.toString }

inductive HistoryError where
  | limitNotPositive (limit : Int)
deriving DecidableEq

def HistoryError.message : HistoryError → String
  | .limitNotPositive limit => s!"History limit must be positive, got {limit}"

/-- Why there is no record under an id that one was asked for. -/
inductive LookupError where
  | noRecord (id : Int)
deriving DecidableEq

def LookupError.message : LookupError → String
  | .noRecord id => toString id

/-- The records by id in the order in which the ids came in, and the last id handed out. -/
structure History where
  limit : Option Nat := none
  lastId : Nat := 0
  records : List CellRecord := []
deriving DecidableEq, Inhabited

namespace History

/-- A history without records; a limit has to be positive. -/
def create (limit : Option Int) : Except HistoryError History :=
  match limit with
  | none => .ok {}
  | some n => if n < 1 then .error (.limitNotPositive n) else .ok { limit := some n.toNat }

def nextId (history : History) : Nat × History :=
  (history.lastId + 1, { history with lastId := history.lastId + 1 })

/-- The records with `record` under its id: in the place of that id, or at the end. -/
def store (record : CellRecord) : List CellRecord → List CellRecord
  | [] => [record]
  | held :: rest => if held.id = record.id then record :: rest else held :: store record rest

def excess (history : History) : Nat :=
  match history.limit with
  | none => 0
  | some limit => history.records.length - limit

def evicted (history : History) (record : CellRecord) : List CellRecord :=
  let stored := { history with records := store record history.records }
  stored.records.take stored.excess

/-- Adds a record, and drops the oldest ones beyond the limit. -/
def add (history : History) (record : CellRecord) : History :=
  let stored := { history with records := store record history.records }
  { stored with records := stored.records.drop stored.excess }

def get? (history : History) (id : Int) : Option CellRecord :=
  history.records.find? fun record => record.id == id

def item (history : History) (id : Int) : Except LookupError CellRecord :=
  match history.get? id with
  | some record => .ok record
  | none => .error (.noRecord id)

def contains (history : History) (id : Int) : Bool := (history.get? id).isSome

/-- The last record in the order of the ids' arrival. -/
def latest? (history : History) : Option CellRecord := history.records.getLast?

def size (history : History) : Nat := history.records.length

def ids (history : History) : List Int := history.records.map CellRecord.id

end History

end NotebookCell
