/-!
# Variable-length quantities in base 64

An integer is written in groups of five bits, lowest first, each as a base-64 digit whose sixth bit
says that more follow. The lowest bit of the first group is the sign.
-/

namespace NotebookCell.Vlq

def alphabet : List Char :=
  "ABCDEFGHIJKLMNOPQRSTUVWXYZabcdefghijklmnopqrstuvwxyz0123456789+/".toList

def digitChar (digit : Nat) : Char := alphabet.getD digit 'A'

def zigzag (value : Int) : Nat := 2 * value.natAbs + if value < 0 then 1 else 0

/-- The five-bit groups of a number, every one but the last with its sixth bit set. -/
def groups (n : Nat) : List Nat :=
  if n < 32 then [n] else (n % 32 + 32) :: groups (n / 32)
termination_by n
decreasing_by omega

def encodeChars (value : Int) : List Char := (groups (zigzag value)).map digitChar

def encode (value : Int) : String := String.ofList (encodeChars value)

end NotebookCell.Vlq
