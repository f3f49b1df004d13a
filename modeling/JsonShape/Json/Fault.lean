import JsonShape.Json.Value

/-! Faults of a JSON text.

A fault holds its cause and what was left of the text where it was found. The place in the text
follows from the length of that rest. Lines end at line feeds only, and columns count code points.
-/

set_option autoImplicit false

namespace JsonShape.Json

inductive Cause where
  | byteOrderMark
  | expectingValue
  | expectingName
  | expectingColon
  | expectingComma
  | extraData
  | unterminatedString
  | controlCharacter
  | badEscape
  | badUnicodeEscape
  | constant (c : Constant)
  | tooDeep
  | tooManyDigits (count : Nat)
  deriving DecidableEq

def maxDigits : Nat := 4300

def Cause.message : Cause → Text
  | .byteOrderMark => "Unexpected UTF-8 BOM (decode using utf-8-sig)"
  | .expectingValue => "Expecting value"
  | .expectingName => "Expecting property name enclosed in double quotes"
  | .expectingColon => "Expecting ':' delimiter"
  | .expectingComma => "Expecting ',' delimiter"
  | .extraData => "Extra data"
  | .unterminatedString => "Unterminated string starting at"
  | .controlCharacter => "Invalid control character at"
  | .badEscape => "Invalid \\escape"
  | .badUnicodeEscape => "Invalid \\uXXXX escape"
  | .constant c => c.name ++ " is not valid JSON"
  | .tooDeep => "input is nested too deeply"
  | .tooManyDigits count =>
    "Exceeds the limit (" ++ Text.ofNat maxDigits ++
      " digits) for integer string conversion: value has " ++ Text.ofNat count ++
      " digits; use sys.set_int_max_str_digits() to increase the limit"

structure Fault where
  cause : Cause
  rest : Text

/-- A place in a text: code points before it, its line and its column, both counted from one. -/
structure Position where
  offset : Nat
  line : Nat
  column : Nat
  deriving DecidableEq

def Position.start : Position := ⟨0, 1, 1⟩

def Position.advance (p : Position) (c : CodePoint) : Position :=
  if c = '\n' then ⟨p.offset + 1, p.line + 1, 1⟩ else ⟨p.offset + 1, p.line, p.column + 1⟩

def Position.after (consumed : Text) : Position := consumed.foldl Position.advance Position.start

def Position.ofRest (text rest : Text) : Position :=
  Position.after (text.take (text.length - rest.length))

end JsonShape.Json
