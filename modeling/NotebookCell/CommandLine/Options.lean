import NotebookCell.CommandLine.Option

/-!
# The options of a run

The arguments are taken from left to right. The first operand names the file of the cell; whatever
cannot be used is reported at the end, after all values have been looked at.
-/

namespace NotebookCell.CommandLine

structure Options where
  file : String := "-"
  name : Option String := none
  positions : Bool := false
  sourceMap : Option String := none
  historyLimit : Option Int := none
  repl : Bool := false
  verbose : Bool := false
deriving DecidableEq, Inhabited

/-- How reading the arguments may end without options. -/
inductive Stop where
  | help
  | usage (error : UsageError)
deriving DecidableEq

/-- The options read so far, whether the operand is still to come, and the arguments that could not be
used, in order. -/
structure Progress where
  options : Options := {}
  operandPending : Bool := true
  unused : List (List Char) := []

def Progress.withFile (progress : Progress) (text : List Char) : Progress :=
  { progress with
    operandPending := false
    options := { progress.options with file := String.ofList text } }

def Progress.leave (progress : Progress) (arguments : List (List Char)) : Progress :=
  { progress with unused := progress.unused ++ arguments }

def Options.switchOn (options : Options) : Flag → Except Stop Options
  | .help => .error .help
  | .positions => .ok { options with positions := true }
  | .repl => .ok { options with repl := true }
  | .verbose => .ok { options with verbose := true }
  | .name | .sourceMap | .historyLimit => .ok options

def Options.give (options : Options) (flag : Flag) (value : List Char) : Except Stop Options :=
  match flag with
  | .name => .ok { options with name := some (String.ofList value) }
  | .sourceMap => .ok { options with sourceMap := some (String.ofList value) }
  | .historyLimit =>
    match Text.integer? value with
    | some limit => .ok { options with historyLimit := some limit }
    | none => .error (.usage (.notAnInteger flag value))
  | .help | .positions | .repl | .verbose => .ok options

/-- What is refused in a row of letters behind the letter of a short option. `-h` is the only short
option; it can be repeated, but neither a value nor a minus sign can follow it. -/
def refusedTail? : List Char → Option (List Char)
  | [] => none
  | '-' :: rest => some ('-' :: rest)
  | 'h' :: '=' :: value => some value
  | 'h' :: rest => refusedTail? rest
  | _ => none

/-- An option that takes no value but has one attached: behind `=`, or joined to a short option, where
it is a row of more letters. -/
def attachedToSwitch (options : Options) (flag : Flag) (joined : Bool) (value : List Char) :
    Except Stop Options :=
  match if joined then refusedTail? value else some value with
  | some refused => .error (.usage (.valueUnwanted flag refused))
  | none => options.switchOn flag

/-- Takes arguments from left to right. The mark that ends the options goes with the operand before it
or behind it. -/
def takeArguments (progress : Progress) : List Argument → Except Stop Progress
  | [] => .ok progress
  | .unknown text :: rest => takeArguments (progress.leave [text]) rest
  | .option flag joined (some value) :: rest => do
    let options ←
      if flag.takesValue then progress.options.give flag value
      else attachedToSwitch progress.options flag joined value
    takeArguments { progress with options } rest
  | .option flag _ none :: .operand value :: rest => do
    if flag.takesValue then
      let options ← progress.options.give flag value
      takeArguments { progress with options } rest
    else
      let options ← progress.options.switchOn flag
      takeArguments { progress with options } (.operand value :: rest)
  | .option flag _ none :: rest => do
    if flag.takesValue then throw (.usage (.valueMissing flag))
    let options ← progress.options.switchOn flag
    takeArguments { progress with options } rest
  | .operand text :: .endOfOptions :: rest =>
    if progress.operandPending then takeArguments (progress.withFile text) rest
    else takeArguments (progress.leave [text, ['-', '-']]) rest
  | .endOfOptions :: .operand text :: rest =>
    if progress.operandPending then takeArguments (progress.withFile text) rest
    else takeArguments (progress.leave [['-', '-'], text]) rest
  | .operand text :: rest =>
    if progress.operandPending then takeArguments (progress.withFile text) rest
    else takeArguments (progress.leave [text]) rest
  | .endOfOptions :: rest =>
    if progress.operandPending then takeArguments { progress with operandPending := false } rest
    else takeArguments (progress.leave [['-', '-']]) rest

def Options.check (options : Options) : Except Stop Options :=
  match options.historyLimit with
  | none => .ok options
  | some limit =>
    if !options.repl then .error (.usage .limitWithoutRepl)
    else if limit < 1 then .error (.usage .limitNotPositive)
    else .ok options

def parseArguments (arguments : List String) : Except Stop Options := do
  let reads ←
    match readArguments (arguments.map String.toList) with
    | .ok reads => pure reads
    | .error error => throw (.usage error)
  let progress ← takeArguments {} reads
  if progress.unused.isEmpty then progress.options.check
  else throw (.usage (.unrecognized progress.unused))

end NotebookCell.CommandLine
