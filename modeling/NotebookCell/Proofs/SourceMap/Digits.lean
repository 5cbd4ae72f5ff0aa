import Mathlib.Tactic.SplitIfs
import NotebookCell.SourceMap.Vlq

/-!
# Reading variable-length quantities

The rule by which digits spell a number, a reader of the digits, and that it reads a run of written
integers back.
-/

namespace NotebookCell.Vlq

def digitValue? (c : Char) : Option Nat := alphabet.idxOf? c

/-- The integer whose sign is in the lowest bit. -/
def unzigzag (n : Nat) : Int := if n % 2 = 0 then (n / 2 : Nat) else -((n / 2 : Nat) : Int)

/-- Reads integers. `value` sums up the groups of the first one that are read, and the next group
weighs `weight`. -/
def decodeFrom (value weight : Nat) : List Char → Option (List Int)
  | [] => if weight = 1 then some [] else none
  | c :: rest =>
    match digitValue? c with
    | none => none
    | some digit =>
      if digit < 32 then
        (decodeFrom 0 1 rest).map fun values => unzigzag (value + weight * digit) :: values
      else decodeFrom (value + weight * (digit - 32)) (weight * 32) rest

def decode (text : List Char) : Option (List Int) := decodeFrom 0 1 text

/-! ### The digits of base 64 -/

def base64? (c : Char) : Option Nat :=
  if 'A' ≤ c ∧ c ≤ 'Z' then some (c.toNat - 'A'.toNat)
  else if 'a' ≤ c ∧ c ≤ 'z' then some (c.toNat - 'a'.toNat + 26)
  else if '0' ≤ c ∧ c ≤ '9' then some (c.toNat - '0'.toNat + 52)
  else if c = '+' then some 62
  else if c = '/' then some 63
  else none

/-- Digits that spell a number: five bits each, the lowest first, and the sixth bit in all but the last.
The high ones may be zero. -/
inductive Spells : List Char → Nat → Prop where
  | last {c : Char} {digit : Nat} (h : base64? c = some digit) (hlast : digit < 32) :
    Spells [c] digit
  | more {c : Char} {digit : Nat} {text : List Char} {n : Nat} (h : base64? c = some digit)
    (hmore : 32 ≤ digit) (rest : Spells text n) : Spells (c :: text) (digit - 32 + 32 * n)

theorem toNat_lt_of_base64? {c : Char} {digit : Nat} (h : base64? c = some digit) :
    c.toNat < 128 := by
  have hascii : ∀ d : Char, c ≤ d → d.toNat < 128 → c.toNat < 128 := fun d hle hd =>
    Nat.lt_of_le_of_lt hle hd
  unfold base64? at h
  split_ifs at h with hupper hlower hdigit hplus hslash
  · exact hascii 'Z' hupper.2 (by decide)
  · exact hascii 'z' hlower.2 (by decide)
  · exact hascii '9' hdigit.2 (by decide)
  · exact hascii '+' (Nat.le_of_eq (congrArg Char.toNat hplus)) (by decide)
  · exact hascii '/' (Nat.le_of_eq (congrArg Char.toNat hslash)) (by decide)

theorem eq_digitChar_of_base64? {c : Char} {digit : Nat} (h : base64? c = some digit) :
    c = digitChar digit ∧ digit < 64 := by
  have hall : ∀ code : Fin 128, ∀ digit ∈ base64? (Char.ofNat code.val),
      Char.ofNat code.val = digitChar digit ∧ digit < 64 := by
    decide +kernel
  have hcode := hall ⟨c.toNat, toNat_lt_of_base64? h⟩
  rw [Char.ofNat_toNat] at hcode
  exact hcode digit h

theorem base64?_digitChar {digit : Nat} (h : digit < 64) : base64? (digitChar digit) = some digit := by
  have hall : ∀ d : Fin 64, base64? (digitChar d.val) = some d.val := by decide +kernel
  exact hall ⟨digit, h⟩

theorem length_alphabet : alphabet.length = 64 := by decide +kernel

theorem getElem_alphabet {digit : Nat} (h : digit < alphabet.length) :
    alphabet[digit] = digitChar digit :=
  List.getElem_eq_getD 'A'

theorem digitValue?_eq_base64? (c : Char) : digitValue? c = base64? c := by
  refine Option.ext fun digit => ?_
  rw [digitValue?, List.idxOf?_eq_some_iff]
  constructor
  · rintro ⟨hlt, rfl, -⟩
    rw [getElem_alphabet hlt]
    exact base64?_digitChar (length_alphabet ▸ hlt)
  · intro h
    obtain ⟨hc, hlt⟩ := eq_digitChar_of_base64? h
    have hlength : digit < alphabet.length := length_alphabet.symm ▸ hlt
    refine ⟨hlength, (getElem_alphabet hlength).trans hc.symm, fun j hj heq => ?_⟩
    -- A digit that stood further in front would have two values.
    have hj' := base64?_digitChar (Nat.lt_trans hj hlt)
    rw [← getElem_alphabet (Nat.lt_trans hj hlength), heq, h] at hj'
    exact Nat.ne_of_gt hj (Option.some.inj hj')

theorem not_mem_alphabet {c : Char} (h : base64? c = none) : c ∉ alphabet :=
  List.idxOf?_eq_none_iff.mp ((digitValue?_eq_base64? c).trans h)

theorem unzigzag_zigzag (value : Int) : unzigzag (zigzag value) = value := by
  unfold unzigzag zigzag
  by_cases h : value < 0
  · rw [if_pos h, if_neg (by omega)]
    omega
  · rw [if_neg h, if_pos (by omega)]
    omega

/-! ### One digit is read -/

section
variable {c : Char} {digit value weight : Nat} {rest : List Char}

theorem decodeFrom_cons_none (h : base64? c = none) : decodeFrom value weight (c :: rest) = none := by
  simp only [decodeFrom, digitValue?_eq_base64?, h]

theorem decodeFrom_cons_last (h : base64? c = some digit) (hlast : digit < 32) :
    decodeFrom value weight (c :: rest) =
      (decodeFrom 0 1 rest).map fun values => unzigzag (value + weight * digit) :: values := by
  simp only [decodeFrom, digitValue?_eq_base64?, h, if_pos hlast]

theorem decodeFrom_cons_more (h : base64? c = some digit) (hmore : 32 ≤ digit) :
    decodeFrom value weight (c :: rest) =
      decodeFrom (value + weight * (digit - 32)) (weight * 32) rest := by
  simp only [decodeFrom, digitValue?_eq_base64?, h, if_neg (Nat.not_lt.mpr hmore)]

end

/-! ### What was written is read -/

/-- The reader sums up the digits of one number with their weights. -/
theorem Spells.decodeFrom_append {text : List Char} {n : Nat} (h : Spells text n) (value weight : Nat)
    (rest : List Char) :
    decodeFrom value weight (text ++ rest) =
      (decodeFrom 0 1 rest).map fun values => unzigzag (value + weight * n) :: values := by
  induction h generalizing value weight with
  | last h hlast => exact decodeFrom_cons_last h hlast
  | @more c digit text n h hmore _ ih =>
    have hsum : value + weight * (digit - 32) + weight * 32 * n =
        value + weight * (digit - 32 + 32 * n) := by
      rw [Nat.mul_add, Nat.mul_assoc, Nat.add_assoc]
    rw [List.cons_append, decodeFrom_cons_more h hmore, ih, hsum]

theorem spells_groups (n : Nat) : Spells ((groups n).map digitChar) n := by
  induction n using Nat.strongRecOn with
  | ind n ih =>
    unfold groups
    by_cases hn : n < 32
    · rw [if_pos hn]
      exact Spells.last (base64?_digitChar (by omega)) hn
    · rw [if_neg hn]
      have hsum : n % 32 + 32 - 32 + 32 * (n / 32) = n := by omega
      have hhead : base64? (digitChar (n % 32 + 32)) = some (n % 32 + 32) :=
        base64?_digitChar (by omega)
      have hspells := Spells.more hhead (by omega) (ih (n / 32) (by omega))
      rwa [hsum] at hspells

theorem decode_encodeChars (value : Int) (rest : List Char) :
    decode (encodeChars value ++ rest) = (decode rest).map fun values => value :: values := by
  unfold decode encodeChars
  rw [(spells_groups _).decodeFrom_append, Nat.zero_add, Nat.one_mul, unzigzag_zigzag]

/-- Integers written one after the other read back as they were. -/
theorem decode_flatMap_encodeChars (values : List Int) :
    decode (values.flatMap encodeChars) = some values := by
  induction values with
  | nil => rfl
  | cons value values ih =>
    rw [List.flatMap_cons, decode_encodeChars, ih]
    rfl

theorem groups_lt {n group : Nat} (h : group ∈ groups n) : group < 64 := by
  induction n using Nat.strongRecOn with
  | ind n ih =>
    unfold groups at h
    by_cases hn : n < 32
    · rw [if_pos hn] at h
      have hgroup : group = n := List.mem_singleton.mp h
      omega
    · rw [if_neg hn] at h
      rcases List.mem_cons.mp h with rfl | h
      · omega
      · exact ih (n / 32) (by omega) h

theorem groups_ne_nil (n : Nat) : groups n ≠ [] := by
  unfold groups
  split <;> exact List.cons_ne_nil _ _

theorem encodeChars_ne_nil (value : Int) : encodeChars value ≠ [] := by
  unfold encodeChars
  rw [ne_eq, List.map_eq_nil_iff]
  exact groups_ne_nil _

theorem digitChar_mem_alphabet {digit : Nat} (h : digit < 64) : digitChar digit ∈ alphabet := by
  have hlt : digit < alphabet.length := length_alphabet.symm ▸ h
  rw [← getElem_alphabet hlt]
  exact List.getElem_mem hlt

theorem not_mem_encodeChars {c : Char} (hc : c ∉ alphabet) (value : Int) :
    c ∉ encodeChars value := by
  intro h
  obtain ⟨group, hgroup, rfl⟩ := List.mem_map.mp h
  exact hc (digitChar_mem_alphabet (groups_lt hgroup))

end NotebookCell.Vlq
