import Mathlib.Data.Nat.Log
import NotebookCell.Proofs.SourceMap.Digits

/-!
# Spellings of integers

The reader accepts exactly the texts that spell integers by the rule of the format. An integer has many
spellings, as zeros may stand behind its highest digit; the one that is written is the shortest.
-/

namespace NotebookCell.Vlq

/-- A text that spells integers one after the other, each as a number with the sign in the lowest bit. -/
inductive SpellsAll : List Char → List Int → Prop where
  | nil : SpellsAll [] []
  | cons {text more : List Char} {n : Nat} {values : List Int} (h : Spells text n)
    (rest : SpellsAll more values) : SpellsAll (text ++ more) (unzigzag n :: values)

/-- A text that reads as the integer, as no shorter text does. -/
structure IsShortest (value : Int) (text : List Char) : Prop where
  reads : decode text = some [value]
  length_le : ∀ other, decode other = some [value] → text.length ≤ other.length

variable {text other : List Char} {n m : Nat} {value : Int}

/-! ### What is read -/

/-- A text that holds no integer is empty, and does not stop inside of one. -/
theorem eq_nil_of_decodeFrom {value weight : Nat} (h : decodeFrom value weight text = some []) :
    text = [] ∧ weight = 1 := by
  induction text generalizing value weight with
  | nil =>
    refine ⟨rfl, ?_⟩
    by_contra hweight
    rw [decodeFrom, if_neg hweight] at h
    cases h
  | cons c rest ih =>
    cases hdigit : base64? c with
    | none =>
      rw [decodeFrom_cons_none hdigit] at h
      cases h
    | some digit =>
      rcases Nat.lt_or_ge digit 32 with hlast | hmore
      · rw [decodeFrom_cons_last hdigit hlast] at h
        obtain ⟨values, -, hvalues⟩ := Option.map_eq_some_iff.mp h
        cases hvalues
      · rw [decodeFrom_cons_more hdigit hmore] at h
        have hweight := (ih h).2
        omega

/-- The first integer that is read is spelled by a number in front of the text that the others are
read from. -/
theorem exists_spells_of_decodeFrom {start weight : Nat} {values : List Int}
    (h : decodeFrom start weight text = some (value :: values)) :
    ∃ front back n, text = front ++ back ∧ Spells front n ∧
      unzigzag (start + weight * n) = value ∧ decode back = some values := by
  -- `start` sums up the digits of this number that were read before, the next one weighs `weight`.
  induction text generalizing start weight with
  | nil =>
    rw [decodeFrom] at h
    split at h <;> cases h
  | cons c rest ih =>
    cases hdigit : base64? c with
    | none =>
      rw [decodeFrom_cons_none hdigit] at h
      cases h
    | some digit =>
      rcases Nat.lt_or_ge digit 32 with hlast | hmore
      · rw [decodeFrom_cons_last hdigit hlast] at h
        obtain ⟨others, hothers, heq⟩ := Option.map_eq_some_iff.mp h
        cases heq
        exact ⟨[c], rest, digit, rfl, Spells.last hdigit hlast, rfl, hothers⟩
      · rw [decodeFrom_cons_more hdigit hmore] at h
        obtain ⟨front, back, n, rfl, hfront, hvalue, hback⟩ := ih h
        refine ⟨c :: front, back, _, rfl, Spells.more hdigit hmore hfront, ?_, hback⟩
        rw [← hvalue, Nat.mul_add, Nat.mul_assoc, Nat.add_assoc]

theorem SpellsAll.decode_eq {values : List Int} (h : SpellsAll text values) :
    decode text = some values := by
  induction h with
  | nil => rfl
  | cons h _ ih =>
    rw [decode] at ih ⊢
    rw [h.decodeFrom_append, ih, Nat.zero_add, Nat.one_mul]
    rfl

/-- The reader accepts what the format allows, and reads it as the format has it. -/
theorem decode_eq_some_iff {values : List Int} : decode text = some values ↔ SpellsAll text values := by
  refine ⟨fun h => ?_, SpellsAll.decode_eq⟩
  induction values generalizing text with
  | nil =>
    rw [(eq_nil_of_decodeFrom h).1]
    exact SpellsAll.nil
  | cons value values ih =>
    obtain ⟨front, back, n, rfl, hfront, hvalue, hback⟩ := exists_spells_of_decodeFrom h
    rw [Nat.zero_add, Nat.one_mul] at hvalue
    subst hvalue
    exact SpellsAll.cons hfront (ih hback)

theorem exists_spells_of_decode (h : decode text = some [value]) :
    ∃ n, Spells text n ∧ unzigzag n = value := by
  cases decode_eq_some_iff.mp h with
  | cons hspells hrest =>
    cases hrest
    rw [List.append_nil]
    exact ⟨_, hspells, rfl⟩

theorem eq_zigzag_or_eq_one (h : unzigzag n = value) : n = zigzag value ∨ n = 1 ∧ value = 0 := by
  subst h
  unfold unzigzag zigzag
  split_ifs <;> omega

/-! ### How long spellings are -/

theorem Spells.length_pos (h : Spells text n) : 0 < text.length := by
  cases h <;> exact Nat.succ_pos _

theorem Spells.eq_of_length (h : Spells text n) (hother : Spells other m) (hn : n = m)
    (hlength : text.length = other.length) : text = other := by
  -- Both end with the first digit below 32, so the spellings of one length end together.
  induction h generalizing other m with
  | @last c digit hdigit hlast =>
    cases hother with
    | last hdigit' _ =>
      rw [(eq_digitChar_of_base64? hdigit).1, (eq_digitChar_of_base64? hdigit').1, hn]
    | more _ _ rest =>
      have hpos := rest.length_pos
      simp only [List.length_cons, List.length_nil] at hlength
      omega
  | @more c digit rest n hdigit hmore hrest ih =>
    cases hother with
    | last _ _ =>
      have hpos := hrest.length_pos
      simp only [List.length_cons, List.length_nil] at hlength
      omega
    | @more _ digit' rest' n' hdigit' hmore' hrest' =>
      obtain ⟨hc, hlt⟩ := eq_digitChar_of_base64? hdigit
      obtain ⟨hc', hlt'⟩ := eq_digitChar_of_base64? hdigit'
      have hsame : digit = digit' := by omega
      have hhigher : n = n' := by omega
      rw [hc, hc', hsame, ih hrest' hhigher (Nat.succ.inj hlength)]

theorem Spells.length_groups_le (h : Spells text n) : (groups n).length ≤ text.length := by
  induction h with
  | last _ hlast =>
    rw [groups, if_pos hlast]
    exact Nat.le_refl 1
  | @more c digit rest n hdigit hmore hrest ih =>
    have hlt := (eq_digitChar_of_base64? hdigit).2
    rw [groups]
    split
    · exact Nat.succ_le_succ (Nat.zero_le _)
    · have hhigher : (digit - 32 + 32 * n) / 32 = n := by omega
      rw [hhigher]
      exact Nat.succ_le_succ ih

theorem length_groups (n : Nat) : (groups n).length = Nat.log 32 n + 1 := by
  induction n using Nat.strongRecOn with
  | ind n ih =>
    rw [groups]
    by_cases hn : n < 32
    · rw [if_pos hn, Nat.log_of_lt hn]
      rfl
    · rw [if_neg hn, List.length_cons, ih (n / 32) (by omega),
        Nat.log_of_one_lt_of_le (by decide) (Nat.not_lt.mp hn)]

theorem length_encodeChars (value : Int) :
    (encodeChars value).length = Nat.log 32 (zigzag value) + 1 := by
  rw [encodeChars, List.length_map, length_groups]

theorem length_encodeChars_le (h : decode text = some [value]) :
    (encodeChars value).length ≤ text.length := by
  obtain ⟨n, hspells, hvalue⟩ := exists_spells_of_decode h
  rcases eq_zigzag_or_eq_one hvalue with rfl | ⟨-, rfl⟩
  · rw [encodeChars, List.length_map]
    exact hspells.length_groups_le
  · rw [length_encodeChars]
    exact hspells.length_pos

theorem decode_encodeChars_alone (value : Int) : decode (encodeChars value) = some [value] := by
  have h := decode_flatMap_encodeChars [value]
  rwa [List.flatMap_singleton] at h

/-- The text that is written is the shortest; minus zero is as short as zero. -/
theorem isShortest_iff : IsShortest value text ↔ text = encodeChars value ∨ value = 0 ∧ text = ['B'] := by
  have hminus : Spells ['B'] 1 := Spells.last (by decide) (by decide)
  constructor
  · intro h
    have hlength := Nat.le_antisymm (h.length_le _ (decode_encodeChars_alone value))
      (length_encodeChars_le h.reads)
    obtain ⟨n, hspells, hvalue⟩ := exists_spells_of_decode h.reads
    rcases eq_zigzag_or_eq_one hvalue with rfl | ⟨rfl, rfl⟩
    · exact Or.inl (hspells.eq_of_length (spells_groups _) rfl hlength)
    · rw [length_encodeChars] at hlength
      exact Or.inr ⟨rfl, hspells.eq_of_length hminus rfl hlength⟩
  · rintro (rfl | ⟨rfl, rfl⟩)
    · exact ⟨decode_encodeChars_alone value, fun _ => length_encodeChars_le⟩
    · refine ⟨decode_eq_some_iff.mpr (SpellsAll.cons hminus SpellsAll.nil), fun other h => ?_⟩
      obtain ⟨n, hspells, -⟩ := exists_spells_of_decode h
      exact hspells.length_pos

example : decode ['B'] = some [0] ∧ decode ['g', 'A'] = some [0] := by decide

/-! ### What is written -/

/-- The digits of one integer do not go on as those of another. -/
theorem eq_of_encodeChars_prefix {value other : Int} (h : encodeChars value <+: encodeChars other) :
    value = other := by
  obtain ⟨more, hmore⟩ := h
  have hread := decode_encodeChars value more
  rw [hmore, decode_encodeChars_alone] at hread
  obtain ⟨values, -, hvalues⟩ := Option.map_eq_some_iff.mp hread.symm
  exact (List.cons.inj hvalues).1

theorem toList_encode (value : Int) : (encode value).toList = encodeChars value :=
  String.toList_ofList

/-- Integers written one after the other can be told apart: a reader of the format gets back any list of
them. Every integer takes as many digits as its number has groups of five bits, all of the alphabet; its
digits do not begin those of another integer; and no text that reads as the integer is shorter, nor as
short, minus zero apart. -/
theorem encode_uniquely_decodable :
    (∀ text values, decode text = some values ↔ SpellsAll text values) ∧
    (∀ values : List Int, decode (String.join (values.map encode)).toList = some values) ∧
    ∀ value : Int,
      (encode value).length = Nat.log 32 (zigzag value) + 1 ∧
      (∀ c ∈ (encode value).toList, c ∈ alphabet ∧ c ≠ ',' ∧ c ≠ ';') ∧
      (∀ other : Int, (encode value).toList <+: (encode other).toList → value = other) ∧
      ∀ text, IsShortest value text ↔ text = (encode value).toList ∨ value = 0 ∧ text = ['B'] := by
  refine ⟨fun _ _ => decode_eq_some_iff, fun values => ?_, fun value => ⟨?_, ?_, ?_, ?_⟩⟩
  · rw [String.toList_join, List.flatMap_map]
    simp only [toList_encode]
    exact decode_flatMap_encodeChars values
  · rw [encode, String.length_ofList, length_encodeChars]
  · intro c hc
    rw [toList_encode] at hc
    have hmem : c ∈ alphabet := by
      by_contra hout
      exact not_mem_encodeChars hout value hc
    have hcomma : ',' ∉ alphabet := not_mem_alphabet (by decide)
    have hsemicolon : ';' ∉ alphabet := not_mem_alphabet (by decide)
    exact ⟨hmem, fun h => hcomma (h ▸ hmem), fun h => hsemicolon (h ▸ hmem)⟩
  · intro other h
    rw [toList_encode, toList_encode] at h
    exact eq_of_encodeChars_prefix h
  · intro text
    rw [toList_encode]
    exact isShortest_iff

end NotebookCell.Vlq
