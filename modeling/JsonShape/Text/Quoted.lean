import JsonShape.Text.CodePoint

/-! Quoted text.

A quoted text is a JSON string literal in printable ASCII. The quotation mark, the backslash and five
control characters have short escapes. Every other code point outside the printable range becomes
four hexadecimal digits, and one beyond the basic plane becomes a pair of surrogates.
-/

set_option autoImplicit false

namespace JsonShape.Text

def hexDigit (n : Nat) : CodePoint :=
  CodePoint.ofNat (if n % 16 < 10 then 0x30 + n % 16 else 0x61 + (n % 16 - 10))

def unicodeEscape (n : Nat) : Text :=
  [CodePoint.ofChar '\\', CodePoint.ofChar 'u',
    hexDigit (n / 0x1000), hexDigit (n / 0x100), hexDigit (n / 0x10), hexDigit n]

def shortEscape? (c : CodePoint) : Option CodePoint :=
  if c = '"' then some '"'
  else if c = '\\' then some '\\'
  else if c = '\n' then some 'n'
  else if c = '\r' then some 'r'
  else if c = '\t' then some 't'
  else if c.val = 0x0C then some 'f'
  else if c.val = 0x08 then some 'b'
  else none

def escaped (c : CodePoint) : Text :=
  match shortEscape? c with
  | some letter => [CodePoint.ofChar '\\', letter]
  | none =>
    if 0x20 ≤ c.val && c.val ≤ 0x7E then [c]
    else if c.val < 0x10000 then unicodeEscape c.val
    else
      unicodeEscape (0xD800 + (c.val - 0x10000) / 0x400) ++
        unicodeEscape (0xDC00 + (c.val - 0x10000) % 0x400)

def quoted (t : Text) : Text :=
  CodePoint.ofChar '"' :: (t.flatMap escaped ++ [CodePoint.ofChar '"'])

/-- The text with an escape for every surrogate, so that it can be encoded. -/
def escapingSurrogates (t : Text) : Text :=
  t.flatMap fun c => if c.isSurrogate then unicodeEscape c.val else [c]

end JsonShape.Text
