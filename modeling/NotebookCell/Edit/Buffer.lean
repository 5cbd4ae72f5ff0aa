import NotebookCell.Provenance.MappedText

/-!
# Edit buffers

An edit buffer overlays a mapped text with one slot per character. An edit changes what slots hold
and never how many there are, so that offsets into the text stay good for the whole round of edits;
`flush` reads the slots in order. Edits are data, and one that cannot be made leaves no buffer behind.
-/

namespace NotebookCell

/-- Text handed to an edit: plain text takes its origin from where it is put, mapped text keeps its
own origins. -/
inductive Fragment where
  | plain (chars : List Char)
  | mapped (text : MappedText)
deriving DecidableEq, Inhabited

def Fragment.toMapped (fragment : Fragment) (origin : Option Position := none) : MappedText :=
  match fragment with
  | .plain chars => MappedText.ofChars chars origin
  | .mapped text => text

def Fragment.ofString (text : String) : Fragment := .plain text.toList

/-- One edit, addressed by offsets into the text that the buffer was made from. The insertions around
a node are given by the offset of the node's first character, and by the offset after its last. -/
inductive Edit where
  | replace (start stop : Int) (text : Fragment)
  | insertBefore (start : Int) (text : Fragment)
  | insertAfter (stop : Int) (text : Fragment)
  | prepend (text : Fragment)
  | append (text : Fragment)
deriving DecidableEq, Inhabited

inductive EditError where
  | rangeOutside (start stop : Int) (slots : Nat)
  | slotOutside (index : Int) (slots : Nat)
deriving DecidableEq

def EditError.message : EditError → String
  | .rangeOutside start stop slots => s!"Edit range [{start}, {stop}) outside buffer of {slots} slots"
  | .slotOutside index slots => s!"Slot {index} outside buffer of {slots} slots"

/-- One slot per character, with text in front of them all and text behind them all. -/
structure EditBuffer where
  slots : List MappedText
  head : MappedText := []
  tail : MappedText := []
deriving DecidableEq

namespace EditBuffer

/-- The buffer over a text: each slot holds its character. -/
def ofText (text : MappedText) : EditBuffer := { slots := text.map fun c => [c] }

def size (buffer : EditBuffer) : Nat := buffer.slots.length

/-- Everything that the buffer holds, in order. -/
def flush (buffer : EditBuffer) : MappedText := buffer.head ++ buffer.slots.flatten ++ buffer.tail

/-- Puts a fragment in front of slot `index`, or at the end when there is no such slot. -/
def insertAt (buffer : EditBuffer) (index : Nat) (text : Fragment) : EditBuffer :=
  if index = buffer.size then { buffer with tail := buffer.tail ++ text.toMapped }
  else { buffer with slots := buffer.slots.modify index (text.toMapped ++ ·) }

/-- Puts a fragment behind what slot `index` holds. -/
def extendSlot (buffer : EditBuffer) (index : Nat) (text : Fragment) : EditBuffer :=
  { buffer with slots := buffer.slots.modify index (· ++ text.toMapped) }

/-- Empties the slots of a range that is not empty and puts the fragment into the first of them.
Plain text takes the origin of what that slot held. -/
def fillRange (buffer : EditBuffer) (start stop : Nat) (text : Fragment) : EditBuffer :=
  let held := (buffer.slots[start]?).getD []
  let filled := text.toMapped held.firstOrigin
  { buffer with
    slots := buffer.slots.take start ++ filled ::
      (List.replicate (stop - start - 1) [] ++ buffer.slots.drop stop) }

def apply (buffer : EditBuffer) : Edit → Except EditError EditBuffer
  | .replace start stop text =>
    if 0 ≤ start ∧ start ≤ stop ∧ stop ≤ buffer.size then
      if start = stop then .ok (buffer.insertAt start.toNat text)
      else .ok (buffer.fillRange start.toNat stop.toNat text)
    else .error (.rangeOutside start stop buffer.size)
  | .insertBefore start text =>
    if 0 ≤ start ∧ start < buffer.size then .ok (buffer.insertAt start.toNat text)
    else .error (.slotOutside start buffer.size)
  | .insertAfter stop text =>
    if 0 ≤ stop - 1 ∧ stop - 1 < buffer.size then .ok (buffer.extendSlot (stop - 1).toNat text)
    else .error (.slotOutside (stop - 1) buffer.size)
  | .prepend text => .ok { buffer with head := text.toMapped ++ buffer.head }
  | .append text => .ok { buffer with tail := buffer.tail ++ text.toMapped }

/-- Makes edits in order, up to the first that cannot be made. -/
def applyAll (buffer : EditBuffer) : List Edit → Except EditError EditBuffer
  | [] => .ok buffer
  | edit :: edits => do
    let buffer ← buffer.apply edit
    buffer.applyAll edits

/-! ### Small laws -/

@[simp] theorem size_ofText (text : MappedText) : (ofText text).size = text.length := by
  simp [ofText, size]

@[simp] theorem flush_ofText (text : MappedText) : (ofText text).flush = text := by
  simp only [flush, ofText, List.nil_append, List.append_nil]
  induction text with
  | nil => rfl
  | cons c cs ih => simp [ih]

end EditBuffer

end NotebookCell
