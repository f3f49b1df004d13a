import JsonShape.Text.Alphanumeric
import JsonShape.Text.Casing

/-! Words of a key and the name they spell.

A word ends before a separator, which is any code point that is not alphanumeric, and at a hump, where
an ASCII capital follows a lower-case ASCII letter. A name in Pascal case has every word with its
first letter raised and its other letters lowered. Both are found in one pass from the left.
-/

set_option autoImplicit false

namespace JsonShape

def CodePoint.isSeparator (c : CodePoint) : Bool := !c.isAlphanumeric

/-- Words found so far and the letters of the word under way, each newest first. -/
structure Splitting where
  words : List Text
  letters : Text

namespace Splitting

def start : Splitting := ⟨[], []⟩

def close (s : Splitting) : Splitting :=
  if s.letters.isEmpty then s else ⟨s.letters.reverse :: s.words, []⟩

def add (s : Splitting) (c : CodePoint) : Splitting := ⟨s.words, c :: s.letters⟩

/-- Whether a capital would rise right after a lower-case letter. -/
def humpBefore (s : Splitting) (c : CodePoint) : Bool :=
  c.isAsciiUpper && s.letters.head?.any CodePoint.isAsciiLower

def next (s : Splitting) (c : CodePoint) : Splitting :=
  if c.isSeparator then s.close
  else if s.humpBefore c then s.close.add c
  else s.add c

def finish (s : Splitting) : List Text := s.close.words.reverse

end Splitting

namespace Text

def words (t : Text) : List Text := (t.foldl Splitting.next Splitting.start).finish

def capitalized : Text → Text
  | [] => []
  | c :: rest => c.upper ++ lower rest

def pascal (t : Text) : Text := t.words.flatMap capitalized

end Text

end JsonShape
