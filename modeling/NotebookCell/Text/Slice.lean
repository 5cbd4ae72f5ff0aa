/-!
# Slices with signed bounds

A bound counts from the start when it is not negative and from the end otherwise; bounds outside
the list are clamped to its ends. A slice whose bounds are crossed is empty.
-/

namespace NotebookCell.Text

/-- The place that the signed bound `i` stands for in a list of `size` items. -/
def clampBound (size : Nat) (i : Int) : Nat :=
  if 0 ≤ i then min i.toNat size else (i + size).toNat

/-- The items from `start` up to, and without, `stop` (by default to the end). -/
def slice {α : Type} (xs : List α) (start : Int) (stop : Option Int) : List α :=
  let lo := clampBound xs.length start
  let hi := clampBound xs.length (stop.getD xs.length)
  (xs.take hi).drop lo

/-- The item at a signed index; `none` outside the list. -/
def itemAt? {α : Type} (xs : List α) (i : Int) : Option α :=
  if 0 ≤ i then xs[i.toNat]?
  else if 0 ≤ i + xs.length then xs[(i + xs.length).toNat]?
  else none

end NotebookCell.Text
