import JsonShape.Text.Alphanumeric

/-! Dates.

A date has four, two and two ASCII digits with dashes between them. A time may follow: the letter T, hours
and minutes, seconds with an optional fraction if any, and a zone if any, which is the letter Z or a
sign with hours and minutes. Nothing may come before or after.
-/

set_option autoImplicit false

namespace JsonShape

namespace Date

def afterDigits? : Nat → Text → Option Text
  | 0, t => some t
  | _ + 1, [] => none
  | n + 1, c :: rest => if c.isAsciiDigit then afterDigits? n rest else none

def afterMark? (mark : CodePoint) : Text → Option Text
  | [] => none
  | c :: rest => if c = mark then some rest else none

def afterDay? (t : Text) : Option Text := do
  let t ← afterDigits? 4 t
  let t ← afterMark? '-' t
  let t ← afterDigits? 2 t
  let t ← afterMark? '-' t
  afterDigits? 2 t

def afterMinutes? (t : Text) : Option Text := do
  let t ← afterDigits? 2 t
  let t ← afterMark? ':' t
  afterDigits? 2 t

def afterFraction? (t : Text) : Option Text :=
  match afterMark? '.' t with
  | none => some t
  | some t => do
    let t ← afterDigits? 1 t
    some (t.dropWhile CodePoint.isAsciiDigit)

def afterSeconds? (t : Text) : Option Text :=
  match afterMark? ':' t with
  | none => some t
  | some t => do
    let t ← afterDigits? 2 t
    afterFraction? t

/-- Hours and minutes of an offset, with a colon between them or without. -/
def afterOffset? (t : Text) : Option Text := do
  let t ← afterDigits? 2 t
  afterDigits? 2 ((afterMark? ':' t).getD t)

/-- Nothing, or a zone and nothing after it. -/
def isZone : Text → Bool
  | [] => true
  | c :: rest =>
    if c = 'Z' then rest.isEmpty
    else if c = '+' ∨ c = '-' then afterOffset? rest = some []
    else false

def isTime (t : Text) : Bool :=
  (do
    let t ← afterMark? 'T' t
    let t ← afterMinutes? t
    afterSeconds? t).any isZone

end Date

namespace Text

def isDate (t : Text) : Bool := (Date.afterDay? t).any fun rest => rest.isEmpty || Date.isTime rest

end Text

end JsonShape
