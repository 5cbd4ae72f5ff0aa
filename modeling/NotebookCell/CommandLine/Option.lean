import NotebookCell.Text.Integer
import NotebookCell.Text.Quoted

/-!
# Options of the command line

The options, how they are spelled, and how one argument is read on its own: as an option, perhaps
shortened and perhaps with its value attached behind `=`, as an unknown option, as the mark that ends
the options, or as an operand.
-/

namespace NotebookCell.CommandLine

inductive Flag where
  | help
  | name
  | positions
  | sourceMap
  | historyLimit
  | repl
  | verbose
deriving DecidableEq

namespace Flag

def spellings : List (String × Flag) :=
  [("-h", help), ("--help", help), ("--name", name), ("--positions", positions),
    ("--source-map", sourceMap), ("--history-limit", historyLimit), ("--repl", repl),
    ("--verbose", verbose)]

def ofSpelling? (text : List Char) : Option Flag :=
  (spellings.find? fun entry => entry.1.toList == text).map Prod.snd

/-- An option as messages name it: by all its spellings. -/
def display (flag : Flag) : String :=
  String.intercalate "/" ((spellings.filter fun entry => entry.2 == flag).map Prod.fst)

def takesValue : Flag → Bool
  | name | sourceMap | historyLimit => true
  | help | positions | repl | verbose => false

end Flag

inductive UsageError where
  | ambiguous (argument : List Char) (candidates : List String)
  | valueMissing (flag : Flag)
  | valueUnwanted (flag : Flag) (value : List Char)
  | notAnInteger (flag : Flag) (value : List Char)
  | unrecognized (arguments : List (List Char))
  | limitWithoutRepl
  | limitNotPositive
deriving DecidableEq

def UsageError.message : UsageError → String
  | .ambiguous argument candidates =>
    "ambiguous option: " ++ String.ofList argument ++ " could match " ++
      String.intercalate ", " candidates
  | .valueMissing flag => s!"argument {flag.display}: expected one argument"
  | .valueUnwanted flag value =>
    s!"argument {flag.display}: ignored explicit argument {Text.quoted value}"
  | .notAnInteger flag value => s!"argument {flag.display}: invalid int value: {Text.quoted value}"
  | .unrecognized arguments =>
    "unrecognized arguments: " ++ String.intercalate " " (arguments.map String.ofList)
  | .limitWithoutRepl => "--history-limit only applies together with --repl"
  | .limitNotPositive => "--history-limit must be a positive integer"

/-- How an argument reads on its own. The value of an option is behind an `=`, or `joined` to a short
option. -/
inductive Argument where
  | operand (text : List Char)
  | endOfOptions
  | option (flag : Flag) (joined : Bool) (value : Option (List Char))
  | unknown (text : List Char)
deriving DecidableEq

/-- The text before the first `=` and the text after it, if there is one. -/
def splitValue (text : List Char) : List Char × Option (List Char) :=
  match text.dropWhile (· != '=') with
  | [] => (text, none)
  | _ :: value => (text.takeWhile (· != '='), some value)

def isNegativeNumber : List Char → Bool
  | '-' :: rest =>
    match rest.dropWhile Text.isDigit with
    | [] => !rest.isEmpty
    | '.' :: fraction => !fraction.isEmpty && fraction.all Text.isDigit
    | _ => false
  | _ => false

/-- The options that an argument may be a shortened form of, with the attached value. -/
def abbreviated (argument : List Char) : List (String × Argument) :=
  match argument with
  | '-' :: '-' :: _ =>
    let (start, value) := splitValue argument
    (Flag.spellings.filter fun entry => start.isPrefixOf entry.1.toList).map fun entry =>
      (entry.1, .option entry.2 false value)
  | '-' :: c :: value =>
    (Flag.spellings.filter fun entry =>
        entry.1.toList == ['-', c] || argument.isPrefixOf entry.1.toList).map fun entry =>
      (entry.1, .option entry.2 true (if entry.1.toList == ['-', c] then some value else none))
  | _ => []

def readArgument (argument : List Char) : Except UsageError Argument :=
  match argument with
  | '-' :: _ :: _ =>
    match Flag.ofSpelling? argument with
    | some flag => .ok (.option flag false none)
    | none =>
      let (spelling, value) := splitValue argument
      match value, Flag.ofSpelling? spelling with
      | some value, some flag => .ok (.option flag false (some value))
      | _, _ =>
        match abbreviated argument with
        | [(_, read)] => .ok read
        | [] =>
          if isNegativeNumber argument || argument.contains ' ' then .ok (.operand argument)
          else .ok (.unknown argument)
        | candidates => .error (.ambiguous argument (candidates.map Prod.fst))
  | _ => .ok (.operand argument)

/-- Reads the arguments one by one; behind the mark that ends the options, all are operands. -/
def readArguments : List (List Char) → Except UsageError (List Argument)
  | [] => .ok []
  | argument :: rest =>
    if argument = ['-', '-'] then .ok (.endOfOptions :: rest.map .operand)
    else do
      let read ← readArgument argument
      let reads ← readArguments rest
      return read :: reads

end NotebookCell.CommandLine
