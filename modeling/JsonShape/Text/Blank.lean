import JsonShape.Text.CodePoint

/-! Blank text.

Blanks are the white space of the standard together with the four ASCII separators from `U+001C` to
`U+001F`. They are more than the white space of JSON.
-/

set_option autoImplicit false

namespace JsonShape.Text

def blankRanges : List (Nat × Nat) := [
  (0x9, 0xD), (0x1C, 0x20), (0x85, 0x85), (0xA0, 0xA0), (0x1680, 0x1680), (0x2000, 0x200A),
  (0x2028, 0x2029), (0x202F, 0x202F), (0x205F, 0x205F), (0x3000, 0x3000)]

end JsonShape.Text

namespace JsonShape.CodePoint

def isBlank (c : CodePoint) : Bool := c.within Text.blankRanges

end JsonShape.CodePoint

def JsonShape.Text.isBlank (t : JsonShape.Text) : Bool := t.all JsonShape.CodePoint.isBlank
