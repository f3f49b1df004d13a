import JsonShape.Conversion

/-! What a conversion logs.

Log records go to standard error. Most of them are for verbose runs only, but an error is always shown. What
others log while the command waits for them is taken from the surroundings.
-/

set_option autoImplicit false

namespace JsonShape.Cli

inductive LogLevel where
  | debug
  | error
  deriving DecidableEq

def LogLevel.name : LogLevel → Text
  | .debug => "DEBUG"
  | .error => "ERROR"

structure LogRecord where
  level : LogLevel
  logger : Text
  message : Text

def LogRecord.line (r : LogRecord) : Text :=
  r.level.name ++ " " ++ r.logger ++ ": " ++ r.message ++ "\n"

def LogRecord.isShown (verbose : Bool) (r : LogRecord) : Bool := verbose || r.level = .error

/-- What the command meets where it runs. -/
structure Surroundings where
  format : Format
  helpPage : Text
  /-- What the event loop waits with. -/
  selector : Text
  traceback : NameFault → Text
  formatterRecords : List LogRecord

def shapeKind : Shape → Text
  | .string | .number | .boolean | .null => "primitive"
  | .date => "date-string"
  | .unknown => "unknown"
  | .array _ => "array"
  | .object _ _ => "object"
  | .union _ => "union"

def inferenceLogger : Text := "json_to_tszod.pipeline.analyzer.inference"

def inferenceRecord (found : Inferred) : LogRecord where
  level := .debug
  logger := inferenceLogger
  message := "Inferred " ++ shapeKind found.shape ++ " root with " ++ Text.ofNat found.fieldCount ++
    " fields and " ++ Text.ofNat found.diagnostics.length ++ " diagnostics"

namespace Surroundings

def selectorRecord (around : Surroundings) : LogRecord where
  level := .debug
  logger := "asyncio"
  message := "Using selector: " ++ around.selector

def failureRecord (around : Surroundings) (fault : NameFault) : LogRecord where
  level := .error
  logger := "json_to_tszod.pipeline.converter"
  message := "Code generation failed\n" ++ around.traceback fault

def documentRecords (around : Surroundings) (settings : Settings) (found : Inferred) : List LogRecord :=
  if found.hasErrors then []
  else
    match NameFault.ofValue? settings.rootName, settings.formatter with
    | some fault, _ => [around.failureRecord fault]
    | none, .options o => if o.enabled.holds then around.formatterRecords else []
    | none, .other _ => []

/-- What is logged for a text, whatever the conversion ends with. -/
def records (around : Surroundings) (settings : SettingsObject) (t : Text) : List LogRecord :=
  let found : Option Inferred := do
    let sample ← (Json.read t).toOption
    let v ← Conversion.sampleValue? sample
    (Conversion.inferred settings v).toOption
  around.selectorRecord ::
    match found with
    | some found => inferenceRecord found :: around.documentRecords settings.toSettings found
    | none => []

end Surroundings

end JsonShape.Cli
