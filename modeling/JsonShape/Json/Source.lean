import JsonShape.Diagnostic
import JsonShape.Json.Constant
import JsonShape.Json.Reader
import JsonShape.Text.Blank

/-! Sample texts.

A sample is read under the strict rules of JSON, and what happened is told by diagnostics: a warning for
a large text, then one error or one note of success. Blank text is no error and has no value, and a text
that cannot be encoded has no size to compare. Where reading stops at a bare constant, its place is the
first constant outside the string literals.
-/

set_option autoImplicit false

namespace JsonShape.Json

def sizeLimit : Nat := 1024 * 1024

/-- An integer with too many digits stops the program instead of being reported. -/
structure OversizedInteger where
  digits : Nat
  deriving DecidableEq

def OversizedInteger.message (o : OversizedInteger) : Text :=
  (Cause.tooManyDigits o.digits).message

inductive Unread where
  | unencodable
  | oversizedInteger (o : OversizedInteger)
  deriving DecidableEq

structure Sample where
  value : Option Value
  diagnostics : List Diagnostic

def strict : Rules := { acceptsConstants := false }

/-- Where a fault lies: at the rest of the text, except that constants are looked up. -/
def faultPosition (t : Text) (fault : Fault) : Position :=
  match fault.cause with
  | .constant _ => Position.ofRest t ((fromConstant? t).getD t)
  | _ => Position.ofRest t fault.rest

def sizeWarning (t : Text) : List Diagnostic :=
  if sizeLimit < t.utf8Size then [⟨.largeInput t.utf8Size, []⟩] else []

def read (t : Text) : Except Unread Sample :=
  if t.isBlank then .ok ⟨none, []⟩
  else if !t.isEncodable then .error .unencodable
  else
    match decode strict t with
    | .ok value => .ok ⟨some value, sizeWarning t ++ [⟨.parsed, []⟩]⟩
    | .error fault =>
      match fault.cause with
      | .tooManyDigits digits => .error (.oversizedInteger ⟨digits⟩)
      | .tooDeep => .ok ⟨none, sizeWarning t ++ [⟨.tooDeep, []⟩]⟩
      | cause =>
        let place := faultPosition t fault
        .ok ⟨none, sizeWarning t ++ [⟨.syntaxError place.line place.column cause, []⟩]⟩

end JsonShape.Json
