import JsonShape.Json.Token

/-! Reading a JSON text.

The reader goes through the tokens once, from the left, and keeps the containers that are still open on
a stack. Every token leads to the next state or to a fault at that token, so the first fault of the text
is the one reported, whatever comes after it.
-/

set_option autoImplicit false

namespace JsonShape.Json

inductive Frame where
  /-- An array with its elements so far, newest first. -/
  | element (before : List Value)
  /-- An object with its members so far, newest first, and the name whose value is read. -/
  | member (before : List Member) (name : Text)

/-- What the reader expects, inside which open containers, innermost first. -/
inductive State where
  | value (stack : List Frame)
  | arrayStart (stack : List Frame)
  | objectStart (stack : List Frame)
  | key (before : List Member) (stack : List Frame)
  | colon (before : List Member) (name : Text) (stack : List Frame)
  | delimiter (v : Value) (stack : List Frame)

structure Rules where
  /-- Whether the names of numbers that are no JSON are read all the same. -/
  acceptsConstants : Bool := false
  maxDepth : Nat := 990

/-- The number that a numeral stands for; integers beyond the limit are refused. -/
def Numeral.toNumber (n : Numeral) : Except Cause Number :=
  if n.isInteger then
    if maxDigits < n.whole.length then .error (.tooManyDigits n.whole.length)
    else .ok (.integer n.toInt)
  else .ok (.real n)

namespace State

/-- The step where a value is expected. `here` is the text from the token on. -/
def nextValue (rules : Rules) (stack : List Frame) (here : Text) : Token → Except Fault State
  | .null => .ok (.delimiter .null stack)
  | .bool b => .ok (.delimiter (.bool b) stack)
  | .string s => .ok (.delimiter (.string s) stack)
  | .numeral n =>
    match n.toNumber with
    | .ok number => .ok (.delimiter (.number number) stack)
    | .error cause => .error ⟨cause, here⟩
  | .constant c =>
    if rules.acceptsConstants then .ok (.delimiter (.number (.constant c)) stack)
    else .error ⟨.constant c, here⟩
  | .openArray =>
    if stack.length < rules.maxDepth then .ok (.arrayStart stack) else .error ⟨.tooDeep, here⟩
  | .openObject =>
    if stack.length < rules.maxDepth then .ok (.objectStart stack) else .error ⟨.tooDeep, here⟩
  | .broken fault => .error fault
  | .closeArray | .closeObject | .comma | .colon | .junk => .error ⟨.expectingValue, here⟩

def nextKey (before : List Member) (stack : List Frame) (here : Text) : Token → Except Fault State
  | .string s => .ok (.colon before s stack)
  | .broken fault => .error fault
  | _ => .error ⟨.expectingName, here⟩

def nextDelimiter (v : Value) (stack : List Frame) (here : Text) (token : Token) :
    Except Fault State :=
  match stack with
  | [] => .error ⟨.extraData, here⟩
  | .element before :: stack =>
    match token with
    | .comma => .ok (.value (.element (v :: before) :: stack))
    | .closeArray => .ok (.delimiter (.array (v :: before).reverse) stack)
    | _ => .error ⟨.expectingComma, here⟩
  | .member before name :: stack =>
    match token with
    | .comma => .ok (.key ((name, v) :: before) stack)
    | .closeObject => .ok (.delimiter (.object (ofPairs ((name, v) :: before).reverse)) stack)
    | _ => .error ⟨.expectingComma, here⟩

def next (rules : Rules) (state : State) (here : Text) (token : Token) : Except Fault State :=
  match state with
  | .value stack => nextValue rules stack here token
  | .arrayStart stack =>
    match token with
    | .closeArray => .ok (.delimiter (.array []) stack)
    | _ => nextValue rules (.element [] :: stack) here token
  | .objectStart stack =>
    match token with
    | .closeObject => .ok (.delimiter (.object []) stack)
    | _ => nextKey [] stack here token
  | .key before stack => nextKey before stack here token
  | .colon before name stack =>
    match token with
    | .colon => .ok (.value (.member before name :: stack))
    | _ => .error ⟨.expectingColon, here⟩
  | .delimiter v stack => nextDelimiter v stack here token

def finish : State → Except Fault Value
  | .delimiter v [] => .ok v
  | .delimiter _ _ => .error ⟨.expectingComma, []⟩
  | .value _ | .arrayStart _ => .error ⟨.expectingValue, []⟩
  | .objectStart _ | .key _ _ => .error ⟨.expectingName, []⟩
  | .colon _ _ _ => .error ⟨.expectingColon, []⟩

def run (rules : Rules) (state : State) (t : Text) : Except Fault Value :=
  match _shape : skipSpace t with
  | [] => state.finish
  | c :: rest =>
    match state.next rules (c :: rest) (scan c rest).1 with
    | .ok after => after.run rules (scan c rest).2
    | .error fault => .error fault
termination_by t.length
decreasing_by
  have shorter := scan_length_le c rest
  have skipped := length_dropWhile_le isSpace t
  rw [← skipSpace, _shape, List.length_cons] at skipped
  omega

end State

/-- The value of a JSON text, or the first fault. A byte order mark may not precede the value. -/
def decode (rules : Rules) (t : Text) : Except Fault Value :=
  if t.head? = some ⟨0xFEFF, by decide⟩ then .error ⟨.byteOrderMark, t⟩
  else State.run rules (.value []) t

end JsonShape.Json
