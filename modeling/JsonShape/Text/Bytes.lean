import JsonShape.Text.Quoted

/-! Texts as bytes.

Files hold texts in UTF-8. Bytes are read one at a time: a first byte tells how many more follow and
narrows the range of the next one, so that every code point has one spelling and surrogates have none.
Line ends are made uniform after decoding.
-/

set_option autoImplicit false

namespace JsonShape

/-- Bytes still owed for a code point, the range of the next one, and the bits so far. -/
structure Utf8State where
  owed : Nat
  low : Nat
  high : Nat
  bits : Nat

inductive Utf8Cause where
  | invalidStart
  | invalidContinuation
  | unexpectedEnd
  deriving DecidableEq

/-- Where decoding stopped: the bytes from `first` on, `count` of them, the first with the given value. -/
structure Utf8Fault where
  cause : Utf8Cause
  first : Nat
  count : Nat
  byte : Nat

namespace Utf8State

def between : Utf8State := ⟨0, 0, 0, 0⟩

def first? (b : Nat) : Option Utf8State :=
  if b ≤ 0x7F then some ⟨0, 0, 0, b⟩
  else if 0xC2 ≤ b && b ≤ 0xDF then some ⟨1, 0x80, 0xBF, b - 0xC0⟩
  else if b = 0xE0 then some ⟨2, 0xA0, 0xBF, 0⟩
  else if b = 0xED then some ⟨2, 0x80, 0x9F, 0xD⟩
  else if 0xE1 ≤ b && b ≤ 0xEF then some ⟨2, 0x80, 0xBF, b - 0xE0⟩
  else if b = 0xF0 then some ⟨3, 0x90, 0xBF, 0⟩
  else if 0xF1 ≤ b && b ≤ 0xF3 then some ⟨3, 0x80, 0xBF, b - 0xF0⟩
  else if b = 0xF4 then some ⟨3, 0x80, 0x8F, 4⟩
  else none

def more? (s : Utf8State) (b : Nat) : Option Utf8State :=
  if s.low ≤ b && b ≤ s.high then some ⟨s.owed - 1, 0x80, 0xBF, s.bits * 64 + (b - 0x80)⟩ else none

end Utf8State

namespace Text

def utf8Bytes (c : CodePoint) : List UInt8 :=
  let n := c.val
  let tail (n : Nat) : UInt8 := UInt8.ofNat (0x80 + n % 64)
  if n < 0x80 then [UInt8.ofNat n]
  else if n < 0x800 then [UInt8.ofNat (0xC0 + n / 64), tail n]
  else if n < 0x10000 then [UInt8.ofNat (0xE0 + n / 0x1000), tail (n / 64), tail n]
  else [UInt8.ofNat (0xF0 + n / 0x40000), tail (n / 0x1000), tail (n / 64), tail n]

def encodeUtf8 (t : Text) : List UInt8 := t.flatMap utf8Bytes

/-- Decode the rest of some bytes. `start` counts the bytes before the code point under way, of which the
bytes in `seen` were read, newest first; `done` holds the code points before it, newest first. -/
def decodeFrom (done : Text) (start : Nat) (s : Utf8State) (seen : List Nat) :
    List UInt8 → Except Utf8Fault Text
  | [] =>
    if s.owed = 0 then .ok done.reverse
    else .error ⟨.unexpectedEnd, start, seen.length, seen.getLast?.getD 0⟩
  | byte :: rest =>
    let b := byte.toNat
    if s.owed = 0 then
      match Utf8State.first? b with
      | none => .error ⟨.invalidStart, start, 1, b⟩
      | some after =>
        if after.owed = 0 then decodeFrom (CodePoint.ofNat after.bits :: done) (start + 1) .between [] rest
        else decodeFrom done start after [b] rest
    else
      match s.more? b with
      | none => .error ⟨.invalidContinuation, start, seen.length, seen.getLast?.getD 0⟩
      | some after =>
        if after.owed = 0 then
          decodeFrom (CodePoint.ofNat after.bits :: done) (start + seen.length + 1) .between [] rest
        else decodeFrom done start after (b :: seen) rest

def decodeUtf8 (bytes : List UInt8) : Except Utf8Fault Text := decodeFrom [] 0 .between [] bytes

def uniformLines (t : Text) : Text :=
  let step : Bool × Text → CodePoint → Bool × Text := fun (afterReturn, done) c =>
    if c = '\r' then (true, CodePoint.ofChar '\n' :: done)
    else if c = '\n' && afterReturn then (false, done)
    else (false, c :: done)
  (t.foldl step (false, [])).2.reverse

end Text

namespace Utf8Fault

def reason : Utf8Cause → Text
  | .invalidStart => "invalid start byte"
  | .invalidContinuation => "invalid continuation byte"
  | .unexpectedEnd => "unexpected end of data"

def message (f : Utf8Fault) : Text :=
  let place : Text :=
    if f.count = 1 then
      "byte 0x" ++ [Text.hexDigit (f.byte / 16), Text.hexDigit f.byte] ++ " in position " ++
        Text.ofNat f.first
    else
      "bytes in position " ++ Text.ofNat f.first ++ "-" ++ Text.ofNat (f.first + f.count - 1)
  "'utf-8' codec can't decode " ++ place ++ ": " ++ reason f.cause

end Utf8Fault

end JsonShape
