import NotebookCell.Edit.Buffer

/-!
# Calls on an edit buffer

A caller keeps one buffer and works on it in place. A call that cannot be carried out breaks off, and
the caller may go on with the buffer as the call has left it. A signed index reaches slots from the end
when it is negative, so a call looks at its offsets before it touches a slot.
-/

namespace NotebookCell

/-- A program that works on a buffer in place. What it has done when it breaks off stays done. -/
abbrev Editing (α : Type) := EStateM EditError EditBuffer α

namespace Editing

def checkRange (start stop : Int) : Editing Unit := do
  let buffer ← get
  if ¬(0 ≤ start ∧ start ≤ stop ∧ stop ≤ buffer.size) then
    throw (.rangeOutside start stop buffer.size)

def checkSlot (index : Int) : Editing Unit := do
  let buffer ← get
  if ¬(0 ≤ index ∧ index < buffer.size) then throw (.slotOutside index buffer.size)

def slotNumber (index : Int) : Editing Nat := do
  let buffer ← get
  let number := if 0 ≤ index then index else index + buffer.size
  if 0 ≤ number ∧ number < buffer.size then return number.toNat
  else throw (.slotOutside index buffer.size)

def readSlot (index : Int) : Editing MappedText := do
  let number ← slotNumber index
  return ((← get).slots[number]?).getD []

def writeSlot (index : Int) (text : MappedText) : Editing Unit := do
  let number ← slotNumber index
  modify fun buffer => { buffer with slots := buffer.slots.set number text }

def append (text : Fragment) : Editing Unit :=
  modify fun buffer => { buffer with tail := buffer.tail ++ text.toMapped }

/-- Puts a fragment in front of slot `index`, or at the end when that is the number of slots. -/
def insertAt (index : Int) (text : Fragment) : Editing Unit := do
  let buffer ← get
  if index = buffer.size then append text
  else
    let held ← readSlot index
    writeSlot index (text.toMapped ++ held)

/-- Empties `count` slots behind slot `start`. -/
def clearBehind (start : Int) (count : Nat) : Editing Unit :=
  forM (List.range count) fun (distance : Nat) => writeSlot (start + 1 + distance) []

end Editing

open Editing in
def Edit.perform : Edit → Editing Unit
  | .replace start stop text => do
    checkRange start stop
    if start = stop then insertAt start text
    else
      let held ← readSlot start
      writeSlot start (text.toMapped held.firstOrigin)
      clearBehind start (stop - start - 1).toNat
  | .insertBefore start text => do
    checkSlot start
    insertAt start text
  | .insertAfter stop text => do
    checkSlot (stop - 1)
    let held ← readSlot (stop - 1)
    writeSlot (stop - 1) (held ++ text.toMapped)
  | .prepend text => modify fun buffer => { buffer with head := text.toMapped ++ buffer.head }
  | .append text => Editing.append text

inductive BufferCall where
  | edit (edit : Edit)
  | flush
deriving DecidableEq

/-- Carries out one call; a flush is answered with the text. -/
def BufferCall.perform : BufferCall → Editing (Option MappedText)
  | .edit change => do
    change.perform
    return none
  | .flush => return some (← get).flush

/-- How a call ended, and the buffer that it left behind. -/
structure CallEnd where
  outcome : Except EditError (Option MappedText)
  buffer : EditBuffer

def EditBuffer.call (buffer : EditBuffer) (call : BufferCall) : CallEnd :=
  match call.perform.run buffer with
  | .ok answer buffer => { outcome := .ok answer, buffer }
  | .error error buffer => { outcome := .error error, buffer }

/-- Calls one after another, each on the buffer that the one before has left, whichever way that ended. -/
def EditBuffer.callAll (buffer : EditBuffer) : List BufferCall → List CallEnd
  | [] => []
  | call :: calls => buffer.call call :: (buffer.call call).buffer.callAll calls

end NotebookCell
