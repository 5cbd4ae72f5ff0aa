import NotebookCell.Proofs.Cell.Calls
import NotebookCell.Proofs.Cell.Provenance
import NotebookCell.Proofs.CommandLine.Lines
import NotebookCell.Proofs.Text.Pieces
import NotebookCell.Proofs.Trace.Resolution

/-!
# Sessions

Commands and traces leave no mark on the cells of a session: the history and what is printed for each
cell are those of the session over the cells alone.
-/

namespace NotebookCell.CommandLine

/-- A line, or the end of the input, as the shell takes it. -/
structure Exchange where
  before : Shell
  line : Option (List Char)
  turn : ShellTurn

def Exchange.printed (exchange : Exchange) : String :=
  exchange.before.promptNow ++ exchange.turn.output

def Exchange.cell? (exchange : Exchange) : Option (List Char × String) :=
  match exchange.before.pasted, exchange.line with
  | none, some line => if lineUse line = .cell then some (line, exchange.turn.output) else none
  | _, _ => none

namespace Shell

def exchanges (shell : Shell) : List (List Char) → List Exchange
  | [] => [⟨shell, none, shell.close⟩]
  | line :: lines =>
    let turn := shell.feed line
    ⟨shell, some line, turn⟩ :: if turn.next = .waiting then turn.shell.exchanges lines else []

/-- The shell once lines have been transpiled as cells, one after the other. -/
def transpiled (shell : Shell) : List (List Char) → Shell
  | [] => shell
  | line :: lines =>
    let done := transpileCell shell.trees shell.history (String.ofList line) (some "<repl>")
    ({ shell with history := done.history, trees := done.trees } : Shell).transpiled lines

def isHandled : Except PassError CellRecord → Bool
  | .ok _ => true
  | .error error => error.fault?.isSome

/-- Lines that can be transpiled one after the other, or are at fault themselves. -/
def Handles (shell : Shell) : List (List Char) → Prop
  | [] => True
  | line :: lines =>
    let done := transpileCell shell.trees shell.history (String.ofList line) (some "<repl>")
    isHandled done.result = true ∧
      ({ shell with history := done.history, trees := done.trees } : Shell).Handles lines

/-- What is printed for lines that are transpiled one after the other. -/
def cellOutputs (shell : Shell) : List (List Char) → List (List Char × String)
  | [] => []
  | line :: lines => (line, (shell.cell line).output) :: (shell.cell line).shell.cellOutputs lines

variable {shell : Shell} {line : List Char} {lines : List (List Char)}

theorem map_fst_cellOutputs (shell : Shell) (lines : List (List Char)) :
    (shell.cellOutputs lines).map Prod.fst = lines := by
  induction lines generalizing shell with
  | nil => rfl
  | cons line lines ih => simp [cellOutputs, ih]

/-! ### One line -/

@[simp] theorem shell_cell (shell : Shell) (line : List Char) :
    (shell.cell line).shell =
      { shell with
        history := (transpileCell shell.trees shell.history (String.ofList line) (some "<repl>")).history
        trees := (transpileCell shell.trees shell.history (String.ofList line) (some "<repl>")).trees } := by
  simp only [cell]
  split
  · rfl
  · split <;> rfl

theorem next_cell (h : isHandled (transpileCell shell.trees shell.history (String.ofList line)
    (some "<repl>")).result = true) : (shell.cell line).next = .waiting := by
  simp only [cell]
  split
  · rfl
  · rename_i error hresult
    rw [hresult] at h
    obtain ⟨fault, hfault⟩ := Option.isSome_iff_exists.mp h
    simp [hfault]

theorem shell_endPaste (shell : Shell) (pasted : List (List Char)) :
    (shell.endPaste pasted).shell = { shell with pasted := none } := by
  simp only [endPaste]
  split <;> rfl

theorem next_endPaste (shell : Shell) (pasted : List (List Char)) :
    (shell.endPaste pasted).next = .waiting ∨
      ∃ failure, (shell.endPaste pasted).next = .failed (.trace failure) := by
  simp only [endPaste]
  split
  · exact .inl rfl
  · exact .inr ⟨_, rfl⟩

theorem feed_pasted {pasted : List (List Char)} (h : shell.pasted = some pasted) :
    shell.feed line = if isBlankLine line then shell.endPaste pasted
      else { shell := { shell with pasted := some (pasted ++ [line]) } } := by
  simp [feed, h, isBlankLine]

/-! ### All lines -/

theorem exchanges_cons_waiting (h : (shell.feed line).next = .waiting) :
    shell.exchanges (line :: lines) =
      ⟨shell, some line, shell.feed line⟩ :: (shell.feed line).shell.exchanges lines := by
  simp [exchanges, h]

theorem run_cons_waiting (h : (shell.feed line).next = .waiting) :
    (shell.run (line :: lines)).next = ((shell.feed line).shell.run lines).next ∧
      (shell.run (line :: lines)).shell = ((shell.feed line).shell.run lines).shell := by
  simp [run, h]

theorem next_of_ended (h : (shell.feed line).next ≠ .waiting) :
    (shell.run (line :: lines)).next = (shell.feed line).next ∧
      (shell.run (line :: lines)).shell = (shell.feed line).shell := by
  rw [run]
  split
  · exact absurd ‹_› h
  · exact ⟨rfl, rfl⟩

theorem output_run (shell : Shell) (lines : List (List Char)) :
    (shell.run lines).output = String.join ((shell.exchanges lines).map Exchange.printed) := by
  induction lines generalizing shell with
  | nil => simp [run, exchanges, Exchange.printed]
  | cons line lines ih =>
    by_cases h : (shell.feed line).next = .waiting
    · simp [run, exchanges, h, ih, Exchange.printed]
    · rw [run, exchanges, if_neg h]
      split
      · exact absurd ‹_› h
      · simp [Exchange.printed]

def outsideTrace (shell : Shell) : Shell := { shell with pasted := none }

theorem outsideTrace_eq (h : shell.pasted = none) : shell.outsideTrace = shell := by
  rw [outsideTrace, ← h]

/-- What a session over `lines` comes to if they are used as `uses` says. -/
structure Held (shell : Shell) (lines : List (List Char)) (uses : List (List Char × LineUse)) :
    Prop where
  next : (shell.run lines).next = .finished
  after : (shell.run lines).shell = shell.outsideTrace.transpiled (usedAsCells uses)
  cells : (shell.exchanges lines).filterMap Exchange.cell? =
    shell.outsideTrace.cellOutputs (usedAsCells uses)
  read : (shell.exchanges lines).filterMap Exchange.line = uses.map Prod.fst

theorem usedAsCells_cons {use : LineUse} (huse : use ≠ .cell) (line : List Char)
    (uses : List (List Char × LineUse)) :
    usedAsCells ((line, use) :: uses) = usedAsCells uses := by
  simp [usedAsCells, huse]

theorem usedAsCells_cons_cell (line : List Char) (uses : List (List Char × LineUse)) :
    usedAsCells ((line, .cell) :: uses) = line :: usedAsCells uses := by
  simp [usedAsCells]

theorem cell?_eq_none (turn : ShellTurn) (h : shell.pasted ≠ none ∨ lineUse line ≠ .cell) :
    Exchange.cell? ⟨shell, some line, turn⟩ = none := by
  simp only [Exchange.cell?]
  split
  · rename_i hpasted heq
    cases heq
    rw [if_neg (h.resolve_left (not_not_intro hpasted))]
  · rfl

theorem Held.cons_silent {use : LineUse} {uses : List (List Char × LineUse)}
    (h : Held (shell.feed line).shell lines uses) (hnext : (shell.feed line).next = .waiting)
    (hshell : (shell.feed line).shell.outsideTrace = shell.outsideTrace)
    (huse : use ≠ .cell) (hline : shell.pasted ≠ none ∨ lineUse line ≠ .cell) :
    Held shell (line :: lines) ((line, use) :: uses) := by
  refine ⟨?_, ?_, ?_, ?_⟩
  · rw [(run_cons_waiting hnext).1, h.next]
  · rw [(run_cons_waiting hnext).2, h.after, hshell, usedAsCells_cons huse]
  · rw [exchanges_cons_waiting hnext, List.filterMap_cons_none (cell?_eq_none _ hline), h.cells,
      hshell, usedAsCells_cons huse]
  · simp [exchanges_cons_waiting hnext, h.read]

theorem Held.cons_cell {uses : List (List Char × LineUse)} (hpasted : shell.pasted = none)
    (hcell : lineUse line = .cell) (hfeed : shell.feed line = shell.cell line)
    (hnext : (shell.cell line).next = .waiting) (h : Held (shell.cell line).shell lines uses) :
    Held shell (line :: lines) ((line, .cell) :: uses) := by
  have hwaits : (shell.feed line).next = .waiting := by rw [hfeed, hnext]
  have hafter : (shell.cell line).shell.outsideTrace = (shell.cell line).shell :=
    outsideTrace_eq (by rw [shell_cell, hpasted])
  have hshown : Exchange.cell? ⟨shell, some line, shell.feed line⟩ =
      some (line, (shell.cell line).output) := by
    simp [Exchange.cell?, hpasted, hcell, hfeed]
  refine ⟨?_, ?_, ?_, ?_⟩
  · rw [(run_cons_waiting hwaits).1, hfeed, h.next]
  · rw [(run_cons_waiting hwaits).2, hfeed, h.after, hafter, outsideTrace_eq hpasted,
      usedAsCells_cons_cell, shell_cell, transpiled]
  · rw [exchanges_cons_waiting hwaits, List.filterMap_cons_some hshown, hfeed, h.cells, hafter,
      outsideTrace_eq hpasted, usedAsCells_cons_cell, cellOutputs]
  · rw [exchanges_cons_waiting hwaits, hfeed]
    simp only [List.filterMap_cons, h.read, List.map_cons]

theorem Held.quit (hpasted : shell.pasted = none) (huse : lineUse line = .quit)
    (hfeed : shell.feed line = { shell, next := .finished }) :
    Held shell (line :: lines) [(line, .quit)] := by
  have hended : (shell.feed line).next ≠ .waiting := by simp [hfeed]
  refine ⟨?_, ?_, ?_, ?_⟩
  · rw [(next_of_ended hended).1, hfeed]
  · rw [(next_of_ended hended).2, hfeed, outsideTrace_eq hpasted]
    rfl
  · rw [exchanges, if_neg hended, List.filterMap_cons_none (cell?_eq_none _ (.inr (by simp [huse])))]
    rfl
  · simp [exchanges, hended]

/-- The end of the input, unless it ends a trace that cannot be shown. -/
theorem Held.close (hshown : ∀ failure, (shell.run []).next ≠ .failed (.trace failure)) :
    Held shell [] [] := by
  have hnext : (shell.run []).next = shell.close.next := rfl
  have hshell : (shell.run []).shell = shell.close.shell := rfl
  have hclose : shell.close.next = .finished ∧ shell.close.shell = shell.outsideTrace := by
    cases hpasted : shell.pasted with
    | none => simp [Shell.close, hpasted, outsideTrace_eq hpasted]
    | some pasted =>
      rcases next_endPaste shell pasted with hwaits | ⟨failure, hfailed⟩
      · simp [Shell.close, hpasted, hwaits, shell_endPaste, outsideTrace]
      · refine absurd ?_ (hshown failure)
        simp [hnext, Shell.close, hpasted, hfailed]
  refine ⟨hnext.trans hclose.1, hshell.trans hclose.2, ?_, rfl⟩
  cases hpasted : shell.pasted <;> simp [exchanges, Exchange.cell?, cellOutputs, usedAsCells]

/-- A line of a trace, a blank line or a command that opens no end: only the trace can change. -/
theorem feed_silent (h : shell.pasted ≠ none ∨ lineUse line ≠ .quit ∧ lineUse line ≠ .cell) :
    ((shell.feed line).next = .waiting ∨
        ∃ failure, (shell.feed line).next = .failed (.trace failure)) ∧
      (shell.feed line).shell.outsideTrace = shell.outsideTrace ∧
      (shell.feed line).shell.pasted.isSome =
        if shell.pasted.isSome then !isBlankLine line else lineUse line == .stack := by
  cases hpasted : shell.pasted with
  | some pasted =>
    rw [feed_pasted hpasted]
    split
    · exact ⟨next_endPaste shell pasted, by rw [shell_endPaste]; rfl, by simp_all [shell_endPaste]⟩
    · exact ⟨.inl rfl, rfl, by simp_all⟩
  | none =>
    obtain ⟨hquit, hcell⟩ := h.resolve_left (not_not_intro hpasted)
    rcases feed_cases hpasted line with h | ⟨huse, output, hfeed⟩ | ⟨huse, output, hfeed⟩ | h
    · exact absurd h.1 hquit
    · exact ⟨by simp [hfeed], by simp [hfeed, outsideTrace], by simp [hfeed, huse]⟩
    · refine ⟨by simp [hfeed], by simp [hfeed], ?_⟩
      rcases huse with huse | huse <;> simp [hfeed, hpasted, huse]
    · exact absurd h.1 hcell

/-- A session in which every cell is transpiled or at fault, and that no trace breaks off. -/
theorem held_of_handles (hhandles : shell.outsideTrace.Handles
      (usedAsCells (lineUses shell.pasted.isSome lines)))
    (hshown : ∀ failure, (shell.run lines).next ≠ .failed (.trace failure)) :
    Held shell lines (lineUses shell.pasted.isSome lines) := by
  induction lines generalizing shell with
  | nil => exact .close hshown
  | cons line lines ih =>
    have hsilent : ∀ use, use ≠ .cell →
        (shell.pasted ≠ none ∨ lineUse line ≠ .quit ∧ lineUse line ≠ .cell) →
        lineUses shell.pasted.isSome (line :: lines) =
          (line, use) :: lineUses (shell.feed line).shell.pasted.isSome lines →
        Held shell (line :: lines) (lineUses shell.pasted.isSome (line :: lines)) := by
      intro use huse hline huses
      obtain ⟨hnext, hbase, -⟩ := feed_silent hline
      have hwaits : (shell.feed line).next = .waiting := by
        refine hnext.resolve_right ?_
        rintro ⟨failure, hfailed⟩
        have hended : (shell.feed line).next ≠ .waiting := by simp [hfailed]
        exact hshown failure ((next_of_ended hended).1.trans hfailed)
      rw [huses] at hhandles ⊢
      rw [usedAsCells_cons huse, ← hbase] at hhandles
      refine (ih hhandles ?_).cons_silent hwaits hbase huse (hline.imp_right And.right)
      intro failure
      rw [← (run_cons_waiting hwaits).1]
      exact hshown failure
    cases hpasted : shell.pasted with
    | some pasted =>
      have hline : shell.pasted ≠ none := by simp [hpasted]
      refine hpasted ▸ hsilent .trace (by decide) (.inl hline) ?_
      rw [(feed_silent (.inl hline)).2.2, hpasted]
      rfl
    | none =>
      rw [hpasted, Option.isSome_none] at hhandles
      by_cases hquit : lineUse line = .quit
      · have hfeed : shell.feed line = { shell, next := .finished } := by
          rcases feed_cases hpasted line with h | h | h | h <;> simp_all
        simpa [lineUses, hquit] using Held.quit hpasted hquit hfeed
      · by_cases hcell : lineUse line = .cell
        · have huses : lineUses false (line :: lines) = (line, .cell) :: lineUses false lines := by
            rw [lineUses, if_neg Bool.false_ne_true, if_neg hquit, hcell]
            rfl
          have hfeed : shell.feed line = shell.cell line := by
            rcases feed_cases hpasted line with h | h | h | h <;> simp_all
          rw [huses, usedAsCells_cons_cell, outsideTrace_eq hpasted] at hhandles
          have hnext := next_cell hhandles.1
          have hwaits : (shell.feed line).next = .waiting := by rw [hfeed, hnext]
          have hafter : (shell.cell line).shell.pasted = none := by rw [shell_cell, hpasted]
          have hrest := @ih (shell.cell line).shell
            (by rw [outsideTrace_eq hafter, hafter, shell_cell]; exact hhandles.2) (by
              intro failure
              rw [← hfeed, ← (run_cons_waiting hwaits).1]
              exact hshown failure)
          rw [hafter, Option.isSome_none] at hrest
          rw [Option.isSome_none, huses]
          exact hrest.cons_cell hpasted hcell hfeed hnext
        · refine hpasted ▸ hsilent (lineUse line) hcell (.inr ⟨hquit, hcell⟩) ?_
          rw [(feed_silent (.inr ⟨hquit, hcell⟩)).2.2]
          simp [lineUses, hpasted, hquit]

theorem held_cells (hpasted : shell.pasted = none) (hlines : ∀ line ∈ lines, lineUse line = .cell)
    (hhandles : shell.Handles lines) : Held shell lines (lines.map fun line => (line, .cell)) := by
  induction lines generalizing shell with
  | nil => exact .close (by simp [run, Shell.close, hpasted])
  | cons line lines ih =>
    have hcell := hlines line (List.mem_cons_self ..)
    have hfeed : shell.feed line = shell.cell line := by
      rcases feed_cases hpasted line with h | h | h | h <;> simp_all
    have hrest := @ih (shell.cell line).shell (by rw [shell_cell, hpasted])
      (fun other h => hlines other (List.mem_cons_of_mem _ h))
      (by rw [shell_cell]; exact hhandles.2)
    exact hrest.cons_cell hpasted hcell hfeed (next_cell hhandles.1)

end Shell

/-- A session from which no cell and no trace breaks out. -/
theorem run_transparent {shell : Shell} {lines : List (List Char)} (hpasted : shell.pasted = none)
    (hhandles : shell.Handles (cellLines lines))
    (hshown : ∀ failure, (shell.run lines).next ≠ .failed (.trace failure)) :
    (shell.run lines).shell = shell.transpiled (cellLines lines) ∧
      (shell.run lines).next = .finished ∧
      (shell.run lines).output = String.join ((shell.exchanges lines).map Exchange.printed) ∧
      (shell.exchanges lines).filterMap Exchange.line = (lineUses false lines).map Prod.fst ∧
      ((shell.exchanges lines).filterMap Exchange.cell?).map Prod.fst = cellLines lines ∧
      (shell.exchanges lines).filterMap Exchange.cell? =
        (shell.exchanges (cellLines lines)).filterMap Exchange.cell? ∧
      ∀ trees history code error, (transpileCell trees history code (some "<repl>")).result =
          .error error →
        (transpileCell trees history code (some "<repl>")).history =
          { history with lastId := history.lastId + 1 } := by
  have hbase := Shell.outsideTrace_eq hpasted
  have hheld : shell.Held lines (lineUses false lines) := by
    have h := @Shell.held_of_handles shell lines
      (by rw [hbase, hpasted]; exact hhandles) hshown
    rwa [hpasted] at h
  have hcells : shell.Held (cellLines lines) ((cellLines lines).map fun line => (line, .cell)) :=
    Shell.held_cells hpasted (fun line h => lineUse_of_mem_usedAsCells h) hhandles
  have hsame : usedAsCells ((cellLines lines).map fun line => (line, .cell)) = cellLines lines := by
    simp [usedAsCells, List.filter_map, Function.comp_def]
  refine ⟨?_, hheld.next, Shell.output_run shell lines, hheld.read, ?_, ?_, ?_⟩
  · rw [hheld.after, hbase, cellLines]
  · rw [hheld.cells, hbase, Shell.map_fst_cellOutputs, cellLines]
  · rw [hheld.cells, hcells.cells, hsame, cellLines]
  · intro trees history code error hresult
    rw [transpileCell_history, hresult]
    rfl

/-- A shell whose first cell is `a` and whose second cell is no cell. -/
def twoCells : Shell :=
  { history := {}
    trees := { singleName with
      prepared := singleName.prepared ++
        [.node { kind := "program", start := 0, stop := 0, hasError := true } []] } }

/-- A session with a trace, two cells of which the second is at fault, and commands. -/
def mixedLines : List (List Char) :=
  [":stack", "at line 1", "", "a", ":show 7", "", "b", ":nothing", ":quit", "c"].map String.toList

theorem run_transparent_applied :
    cellLines mixedLines = [['a'], ['b']] ∧ (twoCells.run mixedLines).next = .finished ∧
      (twoCells.run mixedLines).shell.history.lastId = 2 ∧
      (twoCells.run mixedLines).shell.history.ids = [1] ∧
      (twoCells.run mixedLines).shell = twoCells.transpiled [['a'], ['b']] ∧
      (twoCells.exchanges mixedLines).filterMap Exchange.cell? =
        (twoCells.exchanges [['a'], ['b']]).filterMap Exchange.cell? := by
  have hcells : cellLines mixedLines = [['a'], ['b']] := rfl
  have hnext : (twoCells.run mixedLines).next = .finished := rfl
  have hhandles : twoCells.Handles (cellLines mixedLines) := ⟨rfl, rfl, trivial⟩
  have hshown : ∀ failure, (twoCells.run mixedLines).next ≠ .failed (.trace failure) := by
    simp [hnext]
  obtain ⟨hafter, -, -, -, -, hsame, -⟩ := run_transparent rfl hhandles hshown
  rw [hcells] at hafter hsame
  exact ⟨hcells, hnext, rfl, rfl, hafter, hsame⟩

/-! ### A trace that breaks out -/

/-- A pasted line that cannot be shown ends the session, whatever comes behind it. -/
theorem run_unreadable {shell : Shell} {command line : List Char} {failure : TraceError}
    (hpasted : shell.pasted = none) (hcommand : lineUse command = .stack)
    (hline : isBlankLine line = false) (herror : shell.history.traceError? line = some failure)
    (lines : List (List Char)) :
    (shell.run (command :: line :: [] :: lines)).next = .failed (.trace failure) ∧
      (shell.run (command :: line :: [] :: lines)).shell = shell := by
  obtain ⟨output, hopen⟩ : ∃ output, shell.feed command =
      { shell := { shell with pasted := some [] }, output } := by
    rcases Shell.feed_cases hpasted command with h | h | h | h <;> simp_all
  have hcollect : ({ shell with pasted := some [] } : Shell).feed line =
      { shell := { shell with pasted := some [line] } } := by
    rw [Shell.feed_pasted rfl, hline]
    rfl
  have hend : ({ shell with pasted := some [line] } : Shell).feed [] =
      { shell := shell.outsideTrace, next := .failed (.trace failure) } := by
    have hblank : isBlankLine [] = true := rfl
    rw [Shell.feed_pasted rfl, if_pos hblank]
    simp [Shell.endPaste, History.showError, ReportedError.stackText, Text.joinWith, herror,
      Shell.outsideTrace]
  simp only [Shell.run, hopen, hcollect, hend, Shell.outsideTrace_eq hpasted, and_self]

theorem cellLines_trace {command line : List Char} (hcommand : lineUse command = .stack)
    (hline : isBlankLine line = false) (lines : List (List Char)) :
    cellLines (command :: line :: [] :: lines) = cellLines lines := by
  have hblank : isBlankLine [] = true := rfl
  have huses : lineUses false (command :: line :: [] :: lines) =
      (command, .stack) :: (line, .trace) :: ([], .trace) :: lineUses false lines := by
    simp [lineUses, hcommand, hline, hblank]
  simp [cellLines, huses, usedAsCells]

/-- A reference whose id has one digit too many, and a cell behind it that is never taken. -/
theorem run_not_transparent :
    ∃ line, cellLines [":stack".toList, line, [], ['a']] = [['a']] ∧ twoCells.Handles [['a']] ∧
      (twoCells.run [":stack".toList, line, [], ['a']]).next =
        .failed (.trace (.tooManyDigits 4301)) ∧
      (twoCells.run [":stack".toList, line, [], ['a']]).shell ≠ twoCells.transpiled [['a']] := by
  refine ⟨referenceStart ++ List.replicate 4301 '1', ?_⟩
  generalize hdigits : List.replicate 4301 '1' = digits
  have hlength : digits.length = 4301 := by rw [← hdigits, List.length_replicate]
  have hall : ∀ c ∈ digits, Text.isDigit c = true := by
    intro c hc
    rw [← hdigits] at hc
    rw [List.eq_of_mem_replicate hc]
    rfl
  have herror := traceError?_of_long twoCells.history hall (by rw [hlength]; decide)
  have hline : isBlankLine (referenceStart ++ digits) = false := by
    have hne : Text.trim (referenceStart ++ digits) ≠ [] :=
      Text.trim_cons_ne_nil (c := '_') (by decide) _
    simpa [isBlankLine] using hne
  have hstack : lineUse ":stack".toList = .stack := rfl
  obtain ⟨hnext, hshell⟩ := run_unreadable rfl hstack hline herror [['a']]
  refine ⟨(cellLines_trace hstack hline _).trans rfl, ?_, by rw [hnext, hlength], ?_⟩
  · exact ⟨rfl, trivial⟩
  · rw [hshell]
    intro h
    have hid : (0 : Nat) = 1 := congrArg (fun shell => shell.history.lastId) h
    cases hid

end NotebookCell.CommandLine
