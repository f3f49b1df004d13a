import JsonShape.Document.Example
import JsonShape.Document.TypeScript
import JsonShape.Document.Zod
import JsonShape.Inference
import JsonShape.Json.Source
import JsonShape.Settings

/-! Conversion of a sample text.

A conversion reads the text, infers the shape and writes three documents. It is over early when the text
has no value or the value is neither an object nor an array. Otherwise the documents are ready, and where
the settings ask for it they still have to be formatted.
-/

set_option autoImplicit false

namespace JsonShape

open Json (Value)

structure Documents where
  typeScript : Text := []
  zod : Text := []
  snippet : Text := []

def Documents.files (d : Documents) : List (Text × Text) :=
  [("types.ts", d.typeScript), ("schema.ts", d.zod), ("example.ts", d.snippet)]

def Documents.map? (f : Text → Option Text) (d : Documents) : Option Documents := do
  let typeScript ← f d.typeScript
  let zod ← f d.zod
  let snippet ← f d.snippet
  return { typeScript, zod, snippet }

inductive Failure where
  | unread (why : Json.Unread)
  /-- The settings cannot be asked for the options of inference. -/
  | noInference
  | unusableName
  /-- The formatter is no object, so it is unknown whether to format. -/
  | noFormatter
  | formatter

structure Result where
  documents : Documents := {}
  diagnostics : List Diagnostic := []
  isValid : Bool := false
  fieldCount : Nat := 0
  rootName : Value := .string "Root"
  inferred : Option Inferred := none

def Result.errorCount (r : Result) : Nat := r.diagnostics.countP Diagnostic.isError

/-- A conversion that is over, or a result whose documents wait for the formatter. -/
inductive Progressed where
  | done (r : Result)
  | formatting (o : FormatterOptions) (r : Result)

namespace Conversion

/-- A name that is no text cannot name an object whose path spells nothing, and a container cannot even be
taken as a name. -/
def nameIsUnusable (rootName v : Value) : Bool :=
  match NameFault.ofValue? rootName with
  | none => false
  | some fault => v.isContainer && (fault.isContainer || Inference.namedAfterRoot true false v)

def documentsOf (settings : Settings) (s : Shape) : Documents where
  typeScript := TypeScript.document settings.style s
  zod := Zod.document settings.style s
  snippet := Example.document settings.style s

def write (settings : Settings) (notes : List Diagnostic) (inferred : Inferred) :
    Except Failure Progressed :=
  let diagnostics := notes ++ inferred.diagnostics
  let rejected : Result :=
    { diagnostics, rootName := settings.rootName, inferred := some inferred }
  if inferred.hasErrors then .ok (.done { rejected with fieldCount := inferred.fieldCount })
  else
    match NameFault.ofValue? settings.rootName with
    | some fault =>
      .ok (.done { rejected with diagnostics := diagnostics ++ [⟨.noDocuments fault, []⟩] })
    | none =>
      let result : Result :=
        { rejected with
          documents := documentsOf settings inferred.shape
          isValid := true
          fieldCount := inferred.fieldCount }
      match settings.formatter with
      | .options o => .ok (if o.enabled.holds then .formatting o result else .done result)
      | .other _ => .error .noFormatter

def sampleValue? (sample : Json.Sample) : Option Value :=
  match sample.value with
  | some .null => none
  | value => value

def inferred (settings : SettingsObject) (v : Value) : Except Failure Inferred :=
  if !settings.infers then .error .noInference
  else if nameIsUnusable settings.rootName v then .error .unusableName
  else .ok (infer settings.inferOptions v)

def start (settings : SettingsObject) (t : Text) : Except Failure Progressed :=
  match Json.read t with
  | .error why => .error (.unread why)
  | .ok sample =>
    match sampleValue? sample with
    | none => .ok (.done { diagnostics := sample.diagnostics, rootName := settings.rootName })
    | some v => (inferred settings v).bind (write settings.toSettings sample.diagnostics)

end Conversion

/-- How a document is formatted under some options. There is none where the formatter raises an exception. -/
abbrev Format := FormatterOptions → Text → Option Text

def Progressed.finish (format : Format) : Progressed → Except Failure Result
  | .done r => .ok r
  | .formatting o r =>
    match r.documents.map? (format o) with
    | some documents => .ok { r with documents }
    | none => .error .formatter

def convert (format : Format) (settings : SettingsObject) (t : Text) : Except Failure Result :=
  (Conversion.start settings t).bind (·.finish format)

end JsonShape
