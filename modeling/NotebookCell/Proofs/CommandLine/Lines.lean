import Mathlib.Data.List.TakeWhile
import NotebookCell.CommandLine.Repl

/-!
# The lines of a session

What a line is good for: it is blank, a cell or a command by its text without the blanks around it,
except that the lines behind `:stack` belong to a trace, up to the first blank one.
-/

namespace NotebookCell

/-! ### Trimmed texts and words -/

namespace Text

theorem dropWhile_isBlank_eq_trim (text : List Char) :
    ∃ blanks, text.dropWhile isBlank = trim text ++ blanks ∧ ∀ c ∈ blanks, isBlank c = true := by
  refine ⟨((text.dropWhile isBlank).reverse.takeWhile isBlank).reverse, ?_, ?_⟩
  · rw [trim, ← List.reverse_append, List.takeWhile_append_dropWhile, List.reverse_reverse]
  · intro c hc
    exact List.mem_takeWhile_imp (List.mem_reverse.mp hc)

theorem trim_cons_ne_nil {c : Char} (hc : isBlank c = false) (rest : List Char) :
    trim (c :: rest) ≠ [] := by
  intro h
  obtain ⟨blanks, hsplit, hblanks⟩ := dropWhile_isBlank_eq_trim (c :: rest)
  rw [List.dropWhile_cons_of_neg (by simp [hc]), h, List.nil_append] at hsplit
  have hblank := hblanks c (by simp [← hsplit])
  simp [hc] at hblank

theorem takeWhile_append_of_nil {p : Char → Bool} (front : List Char) {back : List Char}
    (h : back.takeWhile p = []) : (front ++ back).takeWhile p = front.takeWhile p := by
  rw [List.takeWhile_append, h, List.append_nil]
  split
  · rename_i hlength
    exact ((List.takeWhile_prefix p).eq_of_length hlength).symm
  · rfl

theorem wordsFrom_word {word : List Char} (hword : word ≠ []) (text : List Char) :
    ∃ rest, wordsFrom word text =
      (word.reverse ++ text.takeWhile fun c => !isBlank c) :: rest := by
  induction text generalizing word with
  | nil => exact ⟨[], by simp [wordsFrom, hword]⟩
  | cons c text ih =>
    by_cases hc : isBlank c = true
    · exact ⟨wordsFrom [] text, by simp [wordsFrom, hc, hword]⟩
    · obtain ⟨rest, hrest⟩ := ih (List.cons_ne_nil c word)
      exact ⟨rest, by simp [wordsFrom, hc, hrest]⟩

theorem words_dropWhile (text : List Char) : words text = words (text.dropWhile isBlank) := by
  induction text with
  | nil => rfl
  | cons c text ih =>
    by_cases hc : isBlank c = true
    · rw [List.dropWhile_cons_of_pos hc, ← ih]
      simp [words, wordsFrom, hc]
    · rw [List.dropWhile_cons_of_neg hc]

theorem head?_words (text : List Char) : (words text).head? =
    if trim text = [] then none else some ((trim text).takeWhile fun c => !isBlank c) := by
  obtain ⟨blanks, hsplit, hblanks⟩ := dropWhile_isBlank_eq_trim text
  have htake : blanks.takeWhile (fun c => !isBlank c) = [] := by
    cases blanks with
    | nil => rfl
    | cons c rest => simp [hblanks c (List.mem_cons_self ..)]
  rw [words_dropWhile]
  cases hdrop : text.dropWhile isBlank with
  | nil =>
    have htrim : trim text = [] := (List.append_eq_nil_iff.mp (hsplit.symm.trans hdrop)).1
    simp [words, wordsFrom, htrim]
  | cons c rest =>
    have hc : ¬ isBlank c = true := by
      have := List.head_dropWhile_not isBlank (l := text) (by simp [hdrop])
      simpa [hdrop] using this
    have htrim : trim text ≠ [] := by
      intro h
      rw [h, List.nil_append, hdrop] at hsplit
      exact hc (hblanks c (by simp [← hsplit]))
    obtain ⟨others, hothers⟩ := wordsFrom_word (List.cons_ne_nil c []) rest
    rw [if_neg htrim, words, wordsFrom, if_neg hc, hothers, List.head?_cons, Option.some.injEq]
    have hrow : (c :: rest).takeWhile (fun c => !isBlank c) =
        (trim text).takeWhile fun c => !isBlank c := by
      rw [← hdrop, hsplit, takeWhile_append_of_nil _ htake]
    rw [← hrow]
    simp [hc]

end Text

namespace CommandLine

/-! ### Uses -/

inductive LineUse where
  | blank
  | cell
  | quit
  | stack
  | command
  | trace
deriving DecidableEq

def isBlankLine (line : List Char) : Bool := (Text.trim line).isEmpty

def commandUse (name : List Char) : LineUse :=
  match String.ofList name with
  | ":quit" | ":exit" => .quit
  | ":stack" => .stack
  | _ => .command

def lineUse (line : List Char) : LineUse :=
  let text := Text.trim line
  match text.head? with
  | none => .blank
  | some ':' => commandUse (text.takeWhile fun c => !Text.isBlank c)
  | some _ => .cell

def lineUses (inTrace : Bool) : List (List Char) → List (List Char × LineUse)
  | [] => []
  | line :: lines =>
    if inTrace then (line, .trace) :: lineUses (!isBlankLine line) lines
    else if lineUse line = .quit then [(line, .quit)]
    else (line, lineUse line) :: lineUses (lineUse line == .stack) lines

def usedAsCells (uses : List (List Char × LineUse)) : List (List Char) :=
  (uses.filter fun entry => entry.2 = .cell).map Prod.fst

def cellLines (lines : List (List Char)) : List (List Char) := usedAsCells (lineUses false lines)

theorem lineUse_of_mem_usedAsCells {inTrace : Bool} {lines : List (List Char)} {line : List Char}
    (h : line ∈ usedAsCells (lineUses inTrace lines)) : lineUse line = .cell := by
  induction lines generalizing inTrace with
  | nil => simp [usedAsCells, lineUses] at h
  | cons head lines ih =>
    rw [lineUses] at h
    split at h
    · exact ih (by simpa [usedAsCells] using h)
    · split at h
      · simp [usedAsCells] at h
      · by_cases hhead : lineUse head = .cell
        · simp only [usedAsCells, List.filter_cons, hhead, decide_true, if_true, List.map_cons,
            List.mem_cons] at h
          rcases h with rfl | h
          · exact hhead
          · exact ih h
        · exact ih (by simpa [usedAsCells, hhead] using h)

namespace Shell

variable (shell : Shell)

/-- A command leaves the shell as it is, ends the session or opens a trace. -/
theorem command_cases (name : List Char) (arguments : List (List Char)) :
    (commandUse name = .quit ∧ shell.command name arguments = { shell, next := .finished }) ∨
    (commandUse name = .stack ∧ ∃ output, shell.command name arguments =
      { shell := { shell with pasted := some [] }, output }) ∨
    (commandUse name = .command ∧ ∃ output, shell.command name arguments = { shell, output }) := by
  simp only [command, commandUse]
  generalize String.ofList name = word
  split
  case h_4 hquit hexit hstack =>
    refine Or.inr (Or.inr ⟨rfl, ?_⟩)
    split <;> simp_all
  all_goals simp

/-- Outside of a trace, a line is taken as its use says. -/
theorem feed_cases {shell : Shell} (hpasted : shell.pasted = none) (line : List Char) :
    (lineUse line = .quit ∧ shell.feed line = { shell, next := .finished }) ∨
    (lineUse line = .stack ∧ ∃ output, shell.feed line =
      { shell := { shell with pasted := some [] }, output }) ∨
    ((lineUse line = .blank ∨ lineUse line = .command) ∧ ∃ output, shell.feed line =
      { shell, output }) ∨
    (lineUse line = .cell ∧ shell.feed line = shell.cell line) := by
  have hwords := Text.head?_words line
  simp only [feed, hpasted, lineUse]
  cases htrim : Text.trim line with
  | nil =>
    rw [htrim, if_pos rfl, List.head?_eq_none_iff] at hwords
    simp [hwords]
  | cons c rest =>
    rw [htrim, if_neg (List.cons_ne_nil c rest)] at hwords
    obtain ⟨arguments, harguments⟩ := List.head?_eq_some_iff.mp hwords
    by_cases hc : c = ':'
    · subst hc
      have hname : (':' :: rest).takeWhile (fun c => !Text.isBlank c) =
          ':' :: rest.takeWhile fun c => !Text.isBlank c :=
        List.takeWhile_cons_of_pos (by decide)
      simp only [harguments, List.head?_cons, hname]
      rcases command_cases shell (':' :: rest.takeWhile fun c => !Text.isBlank c) arguments with
        h | h | ⟨huse, houtput⟩
      · exact .inl h
      · exact .inr (.inl h)
      · exact .inr (.inr (.inl ⟨.inr huse, houtput⟩))
    · refine .inr (.inr (.inr ⟨?_, ?_⟩))
      · simp
      · rw [harguments]
        split
        · simp_all
        · rename_i name others heq
          have hname := (List.cons.inj heq).1
          by_cases hblank : Text.isBlank c = true
          · simp [hblank] at hname
          · rw [List.takeWhile_cons_of_pos (by simpa using hblank)] at hname
            exact absurd (List.cons.inj hname).1 hc
        · rfl

end Shell

end CommandLine

end NotebookCell
