import JsonShape.Json.Fault
import JsonShape.Path
import JsonShape.Text.Literal

/-! Diagnostics.

A diagnostic is a finding about a place of the input. The finding decides the level and, together with
the place, the message.
-/

set_option autoImplicit false

namespace JsonShape

inductive Level where
  | error
  | warning
  | info
  deriving DecidableEq

def Level.name : Level → Text
  | .error => "error"
  | .warning => "warning"
  | .info => "info"

def Level.ofName? (name : Text) : Option Level := [Level.error, .warning, .info].find? (·.name = name)

def Level.unknownMessage (name : Text) : Text := name.literal ++ " is not a valid DiagnosticLevel"

inductive NameFault where
  | null
  | bool
  | integer
  | real
  | array
  | object
  deriving DecidableEq

namespace NameFault

def ofValue? : Json.Value → Option NameFault
  | .null => some .null
  | .bool _ => some .bool
  | .number (.integer _) => some .integer
  | .number _ => some .real
  | .array _ => some .array
  | .object _ => some .object
  | .string _ => none

/-- Containers cannot be used as names at all, while other values fail only where letters are asked
for. -/
def isContainer : NameFault → Bool
  | .array | .object => true
  | _ => false

def message : NameFault → Text
  | .null => "'NoneType' object is not subscriptable"
  | .bool => "'bool' object is not subscriptable"
  | .integer => "'int' object is not subscriptable"
  | .real => "'float' object is not subscriptable"
  | .array => "'list' object has no attribute 'lower'"
  | .object => "unhashable type: 'slice'"

end NameFault

inductive Finding where
  | largeInput (size : Nat)
  | syntaxError (line column : Nat) (cause : Json.Cause)
  | tooDeep
  | parsed
  | scalarRoot
  | dateString
  | emptyArray
  | mixedElements
  | mixedObjects
  | noDocuments (fault : NameFault)
  deriving DecidableEq

def Finding.level : Finding → Level
  | .largeInput _ | .emptyArray | .mixedElements | .mixedObjects => .warning
  | .syntaxError _ _ _ | .tooDeep | .scalarRoot | .noDocuments _ => .error
  | .parsed | .dateString => .info

/-- A size in mebibytes with one decimal; a half goes to the even neighbour. -/
def tenthsOfMebibytes (size : Nat) : Nat :=
  let tenths := size * 10
  let unit := 1024 * 1024
  let below := tenths / unit
  let rest := 2 * (tenths % unit)
  if rest < unit then below
  else if unit < rest then below + 1
  else if below % 2 = 0 then below else below + 1

structure Diagnostic where
  finding : Finding
  path : Path := []
  deriving DecidableEq

namespace Diagnostic

def level (d : Diagnostic) : Level := d.finding.level

def message (d : Diagnostic) : Text :=
  match d.finding with
  | .largeInput size =>
    let tenths := tenthsOfMebibytes size
    "Input is " ++ Text.ofNat (tenths / 10) ++ "." ++ Text.ofNat (tenths % 10) ++
      "MB. Large inputs may slow down processing."
  | .syntaxError line column cause =>
    "JSON parse error (line " ++ Text.ofNat line ++ ", column " ++ Text.ofNat column ++ "): " ++
      cause.message
  | .tooDeep => "JSON parse error: input is nested too deeply."
  | .parsed => "JSON parsed successfully."
  | .scalarRoot => "Root value must be an object or array."
  | .dateString => "Detected ISO date string at \"" ++ d.path.format ++ "\"."
  | .emptyArray =>
    "Empty array at \"" ++ d.path.display ++ "\", defaulting to unknown element type."
  | .mixedElements => "Mixed element types in array at \"" ++ d.path.display ++ "\"."
  | .mixedObjects =>
    "Mixed element types (objects and primitives) in array at \"" ++ d.path.display ++ "\"."
  | .noDocuments fault => "Code generation error: " ++ fault.message

def line (level : Level) (message place : Text) : Text :=
  let located : Text := if place.isEmpty then message else place ++ ": " ++ message
  "[" ++ level.name ++ "] " ++ located

def render (d : Diagnostic) : Text := line d.level d.message d.path.format

def isError (d : Diagnostic) : Bool := d.level = .error

end Diagnostic

end JsonShape
