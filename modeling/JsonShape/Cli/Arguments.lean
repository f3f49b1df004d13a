import JsonShape.Cli.CloseMatch
import JsonShape.Cli.FileTree
import JsonShape.Samples
import JsonShape.Settings

/-! Arguments of the command.

Options may come in any order and between the other arguments, with their value attached or in the next
argument; short options without a value may share a dash, and after two dashes alone no option follows.
Once all arguments are taken apart, a call for help ends everything. Otherwise values are checked in the
order in which their options first came, and the last value of an option counts.
-/

set_option autoImplicit false

namespace JsonShape.Cli

inductive Parameter where
  | name
  | config
  | style
  | strict
  | detectDates
  | snakeToCamel
  | format
  | sample
  | listSamples
  | outputDir
  | verbose
  | help
  | input
  deriving DecidableEq

inductive OptionKind where
  | takesValue
  | sets (b : Bool)
  deriving DecidableEq

structure Spelling where
  text : Text
  parameter : Parameter
  kind : OptionKind
  deriving DecidableEq

def longOptions : List Spelling := [
  ⟨"--name", .name, .takesValue⟩,
  ⟨"--config", .config, .takesValue⟩,
  ⟨"--style", .style, .takesValue⟩,
  ⟨"--strict", .strict, .sets true⟩,
  ⟨"--detect-dates", .detectDates, .sets true⟩,
  ⟨"--snake-to-camel", .snakeToCamel, .sets true⟩,
  ⟨"--format", .format, .sets true⟩,
  ⟨"--no-format", .format, .sets false⟩,
  ⟨"--sample", .sample, .takesValue⟩,
  ⟨"--list-samples", .listSamples, .sets true⟩,
  ⟨"--output-dir", .outputDir, .takesValue⟩,
  ⟨"--verbose", .verbose, .sets true⟩,
  ⟨"--help", .help, .sets true⟩]

def shortOptions : List Spelling := [
  ⟨"-n", .name, .takesValue⟩,
  ⟨"-c", .config, .takesValue⟩,
  ⟨"-s", .sample, .takesValue⟩,
  ⟨"-o", .outputDir, .takesValue⟩,
  ⟨"-v", .verbose, .sets true⟩]

inductive UsageError where
  | unknownOption (option : Text) (suggestions : List Text)
  | missingValue (option : Text)
  | unwantedValue (option : Text)
  | notAChoice (p : Parameter) (value : Text) (choices : List Text)
  | missingPath (p : Parameter) (value : Text)
  | isFile (p : Parameter) (value : Text)
  | isDirectory (p : Parameter) (value : Text)
  | extraArguments (arguments : List Text)
  | badConfig (reason : Text)

def Parameter.hint (p : Parameter) : Text :=
  match p with
  | .input => "'[PATH]'"
  | p =>
    let spellings := (longOptions ++ shortOptions).filter (·.parameter = p)
    Text.joined " / " (spellings.map fun s => "'" ++ s.text ++ "'")

def Parameter.target : Parameter → Text
  | .input => "File"
  | .outputDir => "Directory"
  | _ => "Path"

def invalid (p : Parameter) (reason : Text) : Text :=
  "Invalid value for " ++ p.hint ++ ": " ++ reason

def UsageError.message : UsageError → Text
  | .unknownOption option suggestions =>
    let tail : Text :=
      match suggestions with
      | [] => []
      | [one] => " Did you mean " ++ one.literal ++ "?"
      | several => " (Did you mean one of: " ++ Text.joined ", " (several.map Text.literal) ++ "?)"
    "No such option " ++ option.literal ++ "." ++ tail
  | .missingValue option => "Option " ++ option.literal ++ " requires an argument."
  | .unwantedValue option => "Option " ++ option.literal ++ " does not take a value."
  | .notAChoice p value choices =>
    invalid p (value.literal ++ " is not one of " ++ Text.joined ", " (choices.map Text.literal) ++ ".")
  | .missingPath p value => invalid p (p.target ++ " " ++ value.literal ++ " does not exist.")
  | .isFile p value => invalid p (p.target ++ " " ++ value.literal ++ " is a file.")
  | .isDirectory p value => invalid p (p.target ++ " " ++ value.literal ++ " is a directory.")
  | .extraArguments arguments =>
    "Got unexpected extra argument" ++ (if arguments.length = 1 then ([] : Text) else ("s" : Text)) ++
      " (" ++ Text.joined " " arguments ++ ")"
  | .badConfig reason => "Invalid value for '--config': " ++ reason

/-! ## Taking arguments apart -/

inductive Given where
  | text (p : Parameter) (value : Text)
  | flag (p : Parameter) (b : Bool)

def Given.parameter : Given → Parameter
  | .text p _ => p
  | .flag p _ => p

structure Taken where
  given : List Given := []
  others : List Text := []

def spelled? (options : List Spelling) (t : Text) : Option Spelling := options.find? (·.text = t)

/-- The value of an option: the one attached to it, or else the next argument. The answer tells whether
the next argument was used. -/
def takeValue (s : Spelling) (attached next : Option Text) : Except UsageError (List Given × Bool) :=
  match attached, next with
  | some value, _ => .ok ([.text s.parameter value], false)
  | none, some value => .ok ([.text s.parameter value], true)
  | none, none => .error (.missingValue s.text)

/-- Short options behind one dash. Whatever follows an option with a value is that value. -/
def takeShort (next : Option Text) : Text → Except UsageError (List Given × Bool)
  | [] => .ok ([], false)
  | c :: rest =>
    let spelling := [CodePoint.ofChar '-', c]
    match spelled? shortOptions spelling with
    | none => .error (.unknownOption spelling [])
    | some s =>
      match s.kind with
      | .takesValue => takeValue s (if rest.isEmpty then none else some rest) next
      | .sets b => do
        let (more, usesNext) ← takeShort next rest
        .ok (.flag s.parameter b :: more, usesNext)

def splitAttached (argument : Text) : Text × Option Text :=
  let isMark (c : CodePoint) : Bool := c = '='
  match argument.dropWhile (!isMark ·) with
  | [] => (argument, none)
  | _ :: value => (argument.takeWhile (!isMark ·), some value)

def takeOption (argument : Text) (next : Option Text) : Except UsageError (List Given × Bool) :=
  let (spelling, attached) := splitAttached argument
  match spelled? longOptions spelling with
  | some s =>
    match s.kind, attached with
    | .takesValue, attached => takeValue s attached next
    | .sets b, none => .ok ([.flag s.parameter b], false)
    | .sets _, some _ => .error (.unwantedValue spelling)
  | none =>
    if ("--" : Text).isPrefixOf argument then
      .error (.unknownOption spelling (closeMatches spelling (longOptions.map (·.text))))
    else takeShort next argument.tail

def isOption (argument : Text) : Bool :=
  argument.head? = some (CodePoint.ofChar '-') && 1 < argument.length

def take (taken : Taken) (arguments : List Text) : Except UsageError Taken :=
  match arguments with
  | [] => .ok taken
  | argument :: rest =>
    if argument = "--" then .ok { taken with others := taken.others ++ rest }
    else if isOption argument then
      match takeOption argument rest.head? with
      | .error e => .error e
      | .ok (given, usesNext) =>
        let taken := { taken with given := taken.given ++ given }
        match usesNext, rest with
        | true, _ :: later => take taken later
        | _, rest => take taken rest
    else take { taken with others := taken.others ++ [argument] } rest

/-! ## Checking values -/

inductive Refusal where
  | usage (e : UsageError)
  | nullInPath
  | help

def checkPath (path : Text) : Except Refusal Text :=
  if holdsNull path then .error .nullInPath else .ok path

structure Invocation where
  name : Option Text := none
  config : Option Location := none
  style : Option OutputStyle := none
  strict : Bool := false
  detectDates : Bool := false
  snakeToCamel : Bool := false
  format : Option Bool := none
  sample : Option NamedSample := none
  listSamples : Bool := false
  outputDir : Option Location := none
  verbose : Bool := false
  input : Option Text := none

def styleNames : List Text := [OutputStyle.type, .interface].map OutputStyle.name

def sampleNames : List Text := samples.map (·.name)

def checkInput (tree : FileTree) (value : Text) : Except Refusal Text :=
  if value = "-" then .ok value
  else do
    let value ← checkPath value
    match tree.find? value with
    | none => .error (.usage (.missingPath .input value))
    | some .directory => .error (.usage (.isDirectory .input value))
    | some (.file _) => .ok value

def setText (tree : FileTree) (i : Invocation) (p : Parameter) (value : Text) :
    Except Refusal Invocation :=
  match p with
  | .name => .ok { i with name := some value }
  | .config => do
    let location := tree.resolve (← checkPath value)
    if (tree.entry? location).isSome then .ok { i with config := some location }
    else .error (.usage (.missingPath p value))
  | .style =>
    match OutputStyle.ofName? value with
    | some style => .ok { i with style := some style }
    | none => .error (.usage (.notAChoice p value styleNames))
  | .sample =>
    match findSample? value with
    | some sample => .ok { i with sample := some sample }
    | none => .error (.usage (.notAChoice p value sampleNames))
  | .outputDir => do
    let location := tree.resolve (← checkPath value)
    if (tree.file? location).isSome then .error (.usage (.isFile p value))
    else .ok { i with outputDir := some location }
  | .input => do
    let value ← checkInput tree value
    .ok { i with input := some value }
  | .strict | .detectDates | .snakeToCamel | .format | .listSamples | .verbose | .help => .ok i

def setFlag (i : Invocation) (p : Parameter) (b : Bool) : Invocation :=
  match p with
  | .strict => { i with strict := b }
  | .detectDates => { i with detectDates := b }
  | .snakeToCamel => { i with snakeToCamel := b }
  | .format => { i with format := some b }
  | .listSamples => { i with listSamples := b }
  | .verbose => { i with verbose := b }
  | .name | .config | .style | .sample | .outputDir | .help | .input => i

def set (tree : FileTree) (i : Invocation) : Given → Except Refusal Invocation
  | .text p value => setText tree i p value
  | .flag p b => .ok (setFlag i p b)

/-- What was given last for each parameter, in the order in which the parameters first came. -/
def lastGiven (given : List Given) : List Given :=
  (given.map Given.parameter).eraseDups.filterMap fun p =>
    given.reverse.find? (·.parameter = p)

def Taken.asksHelp (taken : Taken) : Bool := taken.given.any (·.parameter = .help)

def check (tree : FileTree) (taken : Taken) : Except Refusal Invocation := do
  let input := (taken.others.head?.map (Given.text .input)).toList
  let invocation ← (lastGiven taken.given ++ input).foldlM (set tree) {}
  if taken.others.tail.isEmpty then .ok invocation
  else .error (.usage (.extraArguments taken.others.tail))

def parse (tree : FileTree) (arguments : List Text) : Except Refusal Invocation := do
  let taken ← (take {} arguments).mapError Refusal.usage
  if taken.asksHelp then .error .help else check tree taken

end JsonShape.Cli
