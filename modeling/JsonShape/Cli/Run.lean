import JsonShape.Cli.Header
import JsonShape.Cli.Log
import JsonShape.Text.Bytes
import JsonShape.Text.ControlSequence

/-! The command.

The command takes its settings from a configuration file, if there is one, and from options, which win.
It converts a sample, a file or standard input and writes the documents to standard output or into a
directory. When the conversion gives no documents it writes none. A run is the list of what it does up to
its end, so that a run that is stopped has done what came before. Control sequences go into files and log
records but never with any other text to standard output or standard error.
-/

set_option autoImplicit false

namespace JsonShape.Cli

open Json (Value)

/-- What stops the command without a message of its own. -/
inductive Stop where
  | undecodable (fault : Utf8Fault)
  | configIsDirectory
  | configTooDeep
  | targetIsDirectory
  | noDirectory
  | nameTooLong
  | nullInPath
  | conversion (f : Failure)
  | formatterIsNoObject
  | fixedReferences

def nullMessage : Text := "embedded null byte"

/-! ## Steps of a run -/

inductive Action where
  | print (t : Text)
  | tell (t : Text)
  | log (r : LogRecord)
  | write (l : Location) (content : Text)

namespace Action

def printed : Action → Text
  | .print t => t.withoutControlSequences
  | _ => []

def told : Action → Text
  | .tell t => t.withoutControlSequences.escapingSurrogates
  | .log r => r.line.escapingSurrogates
  | _ => []

def file? : Action → Option (Location × Text)
  | .write l content => some (l, content)
  | _ => none

end Action

/-- What a run does, step by step, and the exit code it ends with or what stops it. -/
structure Attempt where
  actions : List Action := []
  ending : Except Stop Nat

namespace Attempt

def stopped (s : Stop) : Attempt := { ending := .error s }

def after (first : List Action) (a : Attempt) : Attempt := { a with actions := first ++ a.actions }

def ofUsageError (e : UsageError) : Attempt where
  actions := [.tell ("Error: " ++ e.message)]
  ending := .ok 2

def output (a : Attempt) : Text := a.actions.flatMap Action.printed

def errors (a : Attempt) : Text := a.actions.flatMap Action.told

def written (a : Attempt) : List (Location × Text) := a.actions.filterMap Action.file?

end Attempt

structure Outcome where
  exitCode : Nat
  output : Text := []
  errors : Text := []
  written : List (Location × Text) := []

def Attempt.outcome (a : Attempt) : Except Stop Outcome :=
  a.ending.map fun exitCode => { exitCode, output := a.output, errors := a.errors, written := a.written }

/-! ## Settings -/

inductive ConfigFault where
  | usage (e : UsageError)
  | stop (s : Stop)

def readText (bytes : List UInt8) : Except Utf8Fault Text := (Text.decodeUtf8 bytes).map Text.uniformLines

/-- Configuration files may hold the names of numbers that are no JSON. -/
def lenient : Json.Rules := { acceptsConstants := true }

def configFaultMessage (t : Text) (fault : Json.Fault) : Text :=
  match fault.cause with
  | .tooManyDigits digits => Json.OversizedInteger.message ⟨digits⟩
  | cause =>
    let place := Json.Position.ofRest t fault.rest
    cause.message ++ ": line " ++ Text.ofNat place.line ++ " column " ++ Text.ofNat place.column ++
      " (char " ++ Text.ofNat place.offset ++ ")"

def settingsOfText (t : Text) : Except ConfigFault SettingsObject :=
  match Json.decode lenient t with
  | .error fault =>
    if fault.cause = .tooDeep then .error (.stop .configTooDeep)
    else .error (.usage (.badConfig (configFaultMessage t fault)))
  | .ok v =>
    match SettingsObject.ofValue v with
    | .ok settings => .ok settings
    | .error .fixedReferences => .error (.stop .fixedReferences)
    | .error fault => .error (.usage (.badConfig fault.message))

def settingsOfFile (tree : FileTree) (location : Location) : Except ConfigFault SettingsObject :=
  match tree.file? location with
  | none => .error (.stop .configIsDirectory)
  | some bytes =>
    match readText bytes with
    | .error fault => .error (.usage (.badConfig fault.message))
    | .ok t => settingsOfText t

def baseSettings (tree : FileTree) (i : Invocation) : Except ConfigFault SettingsObject :=
  match i.config with
  | none => .ok {}
  | some location => settingsOfFile tree location

def FormatterSetting.withEnabled (f : FormatterSetting) (b : Bool) : Except ConfigFault FormatterSetting :=
  match f with
  | .options o => .ok (.options { o with enabled := .bool b })
  | .other _ => .error (.stop .formatterIsNoObject)

def override (i : Invocation) (s : SettingsObject) : Except ConfigFault SettingsObject := do
  let formatter ←
    match i.format with
    | none => .ok s.formatter
    | some b => FormatterSetting.withEnabled s.formatter b
  .ok
    { s with
      rootName := (i.name.map Value.string).getD s.rootName
      rawStyle := if i.style.isSome then none else s.rawStyle
      outputStyle := i.style.getD s.outputStyle
      strictObjects := if i.strict then .bool true else s.strictObjects
      detectDates := if i.detectDates then .bool true else s.detectDates
      snakeToCamel := if i.snakeToCamel then .bool true else s.snakeToCamel
      formatter }

def effectiveSettings (tree : FileTree) (i : Invocation) : Except ConfigFault SettingsObject :=
  (baseSettings tree i).bind (override i)

def Invocation.readsStandardInput (i : Invocation) : Bool :=
  !i.listSamples && i.sample.isNone && i.input.all fun path => path = ("-" : Text)

def inputBytes (tree : FileTree) (standardInput : List UInt8) (input : Option Text) : List UInt8 :=
  match input with
  | none => standardInput
  | some path =>
    if path = "-" then standardInput
    else
      match tree.find? path with
      | some (.file bytes) => bytes
      | _ => []

def inputText (tree : FileTree) (standardInput : List UInt8) (i : Invocation) : Except Stop Text :=
  match i.sample with
  | some sample => .ok sample.text
  | none => (readText (inputBytes tree standardInput i.input)).mapError Stop.undecodable

/-! ## Output -/

def logRecords (verbose : Bool) (records : List LogRecord) : List Action :=
  (records.filter (·.isShown verbose)).map .log

def tellDiagnostics (r : Result) : List Action := r.diagnostics.map fun d => .tell (d.render ++ "\n")

def banner (name : Text) : Text := "// ---- " ++ name ++ " ----\n"

def printDocuments (d : Documents) : List Action :=
  d.files.flatMap fun (name, code) => [.print (banner name), .print (code ++ "\n")]

def printSamples : List Action := samples.map fun s => .print (s.name ++ ": " ++ s.description ++ "\n")

def writeStop? (tree : FileTree) (l : Location) : Option Stop :=
  if maxPathSize < l.path.utf8Size then some .nameTooLong
  else if tree.isDirectory l then some .targetIsDirectory
  else none

/-- Write files one after the other and then go on. A file that cannot be written ends the run, and the ones
before it stay. -/
def writeAll (tree : FileTree) (files : List (Location × Text)) (next : Attempt) : Attempt :=
  match files with
  | [] => next
  | (l, content) :: files =>
    match writeStop? tree l with
    | some s => .stopped s
    | none => (writeAll tree files next).after [.write l content]

def directoryStop? (tree : FileTree) (directory : Location) : Option Stop :=
  (tree.obstacle? directory).map fun
    | .file => .noDirectory
    | .tooLong => .nameTooLong

def writeDocuments (tree : FileTree) (i : Invocation) (directory : Location) (r : Result) : Attempt :=
  match directoryStop? tree directory with
  | some s => .stopped s
  | none =>
    let tree := { tree with directories := directory :: tree.directories }
    -- the header looks up whatever was given, be it a path or not
    if i.name.any tree.isTooLong then .stopped .nameTooLong
    else
      let top := header (commandLine tree i)
      let files := r.documents.files.map fun (name, code) => (directory ++ [name], top ++ code)
      writeAll tree files
        { actions := [.tell ("Wrote " ++ Text.ofNat files.length ++ " files to " ++ directory.path ++
            " (" ++ Text.ofNat r.fieldCount ++ " fields)\n")]
          ending := .ok 0 }

def present (tree : FileTree) (i : Invocation) (r : Result) : Attempt :=
  .after (tellDiagnostics r) <|
    if !r.isValid then
      { actions := [.tell "Error: Conversion failed, see diagnostics above.\n"], ending := .ok 1 }
    else
      match i.outputDir with
      | none => { actions := printDocuments r.documents, ending := .ok 0 }
      | some directory => writeDocuments tree i directory r

def perform (around : Surroundings) (tree : FileTree) (standardInput : List UInt8) (i : Invocation) :
    Attempt :=
  match effectiveSettings tree i with
  | .error (.usage e) => .ofUsageError e
  | .error (.stop s) => .stopped s
  | .ok settings =>
    match inputText tree standardInput i with
    | .error s => .stopped s
    | .ok t =>
      .after (logRecords i.verbose (around.records settings t)) <|
        match convert around.format settings t with
        | .error f => .stopped (.conversion f)
        | .ok r => present tree i r

def attempt (around : Surroundings) (tree : FileTree) (standardInput : List UInt8)
    (arguments : List Text) : Attempt :=
  match parse tree arguments with
  | .error (.usage e) => .ofUsageError e
  | .error .nullInPath => .stopped .nullInPath
  | .error .help => { actions := [.print (around.helpPage ++ "\n")], ending := .ok 0 }
  | .ok i =>
    if i.listSamples then { actions := printSamples, ending := .ok 0 }
    else perform around tree standardInput i

def run (around : Surroundings) (tree : FileTree) (standardInput : List UInt8) (arguments : List Text) :
    Except Stop Outcome :=
  (attempt around tree standardInput arguments).outcome

end JsonShape.Cli
