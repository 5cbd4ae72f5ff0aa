import NotebookCell.Text.DecimalDigit

/-!
# Printed numbers

A natural number prints as decimal digits, at least one, and they spell it again.
-/

namespace NotebookCell.Text

def numeral (n : Nat) : List Char := Nat.toDigits 10 n

theorem toList_toString_nat (n : Nat) : (toString n).toList = numeral n := Nat.toList_repr

theorem toList_toString_int (n : Nat) : (toString (n : Int)).toList = numeral n := Nat.toList_repr

theorem numeral_ne_nil (n : Nat) : numeral n ≠ [] := Nat.toDigits_ne_nil

theorem digitValue_digitChar {d : Nat} (h : d < 10) : digitValue? (Nat.digitChar d) = some d := by
  have hall : ∀ d : Fin 10, digitValue? (Nat.digitChar d.val) = some d.val := by decide
  exact hall ⟨d, h⟩

theorem isDigit_digitChar {d : Nat} (h : d < 10) : isDigit (Nat.digitChar d) = true := by
  rw [isDigit, digitValue_digitChar h]
  rfl

theorem digitsValue_append_singleton (digits : List Char) (c : Char) :
    digitsValue (digits ++ [c]) = digitsValue digits * 10 + (digitValue? c).getD 0 := by
  simp only [digitsValue, List.foldl_append, List.foldl_cons, List.foldl_nil]

/-- The digits of a number of more than one digit: those of its tens, and the last one. -/
theorem numeral_tens {n : Nat} (h : 10 ≤ n) :
    numeral n = numeral (n / 10) ++ [Nat.digitChar (n % 10)] :=
  Nat.toDigits_of_base_le (by decide) h

theorem numeral_small {n : Nat} (h : n < 10) : numeral n = [Nat.digitChar n] :=
  Nat.toDigits_of_lt_base h

theorem isDigit_of_mem_numeral {n : Nat} {c : Char} (h : c ∈ numeral n) : isDigit c = true := by
  induction n using Nat.strongRecOn with
  | ind n ih =>
    by_cases hn : n < 10
    · rw [numeral_small hn] at h
      rw [List.mem_singleton.mp h]
      exact isDigit_digitChar hn
    · rw [numeral_tens (Nat.not_lt.mp hn)] at h
      rcases List.mem_append.mp h with h | h
      · exact ih (n / 10) (by omega) h
      · rw [List.mem_singleton.mp h]
        exact isDigit_digitChar (Nat.mod_lt n (by decide))

theorem isDigit_or_minus_of_mem {n : Int} {c : Char} (h : c ∈ (toString n).toList) :
    isDigit c = true ∨ c = '-' := by
  cases n with
  | ofNat n =>
    have hnumeral : c ∈ numeral n := by
      rw [← toList_toString_int n]
      exact h
    exact Or.inl (isDigit_of_mem_numeral hnumeral)
  | negSucc n =>
    have hsign : (toString (Int.negSucc n)).toList = '-' :: numeral (n + 1) := by
      rw [← toList_toString_nat]
      exact String.toList_append
    rw [hsign] at h
    rcases List.mem_cons.mp h with h | h
    · exact Or.inr h
    · exact Or.inl (isDigit_of_mem_numeral h)

theorem digitsValue_numeral (n : Nat) : digitsValue (numeral n) = n := by
  induction n using Nat.strongRecOn with
  | ind n ih =>
    by_cases hn : n < 10
    · rw [numeral_small hn, ← List.nil_append [Nat.digitChar n], digitsValue_append_singleton,
        digitValue_digitChar hn]
      exact Nat.zero_add n
    · rw [numeral_tens (Nat.not_lt.mp hn), digitsValue_append_singleton, ih (n / 10) (by omega),
        digitValue_digitChar (Nat.mod_lt n (by decide))]
      exact Nat.div_add_mod' n 10

theorem takeWhile_isDigit_append {digits rest : List Char} (h : ∀ c ∈ digits, isDigit c = true)
    (hrest : ∀ c ∈ rest.head?, isDigit c = false) :
    (digits ++ rest).takeWhile isDigit = digits := by
  induction digits with
  | nil =>
    cases rest with
    | nil => rfl
    | cons c rest =>
      have hc : isDigit c = false := hrest c rfl
      exact List.takeWhile_cons_of_neg (by rw [hc]; exact Bool.false_ne_true)
  | cons c digits ih =>
    have hc : isDigit c = true := h c List.mem_cons_self
    rw [List.cons_append, List.takeWhile_cons_of_pos hc,
      ih fun d hd => h d (List.mem_cons_of_mem c hd)]

/-- The digits in front of a text that goes on with something else are the number's own. -/
theorem takeWhile_isDigit_numeral (n : Nat) {rest : List Char}
    (hrest : ∀ c ∈ rest.head?, isDigit c = false) :
    (numeral n ++ rest).takeWhile isDigit = numeral n :=
  takeWhile_isDigit_append (fun _ => isDigit_of_mem_numeral) hrest

end NotebookCell.Text
