import JsonShape.Text.Alphanumeric

/-! Snake case and camel case.

A key is in snake case when it consists of segments of lower-case ASCII letters and digits, at least
two of them, with an underscore between neighbours, and starts with a letter. Its camel case drops
each underscore before a letter and raises that letter. An underscore before a digit stays, so the
camel case still tells where the segments were.
-/

set_option autoImplicit false

namespace JsonShape

namespace CodePoint

def isSnakePart (c : CodePoint) : Bool := c.isAsciiLower || c.isAsciiDigit

def asciiUpper (c : CodePoint) : CodePoint := ofNat (c.val - 0x20)

end CodePoint

namespace Text

/-- Segments in which a letter or a digit follows every underscore. -/
def isSnakeTail : Text → Bool
  | [] => true
  | c :: rest =>
    (if c = '_' then (rest.head?.any CodePoint.isSnakePart) else c.isSnakePart) && isSnakeTail rest

def isSnake : Text → Bool
  | [] => false
  | c :: rest => c.isAsciiLower && rest.contains (CodePoint.ofChar '_') && isSnakeTail rest

/-- Drops each underscore before a lower-case letter and raises the letter. -/
def camel : Text → Text
  | [] => []
  | [c] => [c]
  | c :: d :: rest =>
    if c = '_' ∧ d.isAsciiLower then d.asciiUpper :: camel rest else c :: camel (d :: rest)

end Text

end JsonShape
