import JsonShape.Naming.Words
import JsonShape.Text.Digit
import Std.Data.TreeMap

/-! Names for object shapes.

A name is spelled from the keys of a path. Its base is the Pascal case of the keys, or the root name if
they spell nothing, after an underscore if it would start with a digit. The first use of a base is bare
and later uses are numbered, with numbers that lead to a name already produced passed over.
-/

set_option autoImplicit false

namespace JsonShape

structure Allocator where
  rootName : Text
  /-- The number last used for each base. -/
  used : Std.TreeMap Text Nat := ∅
  produced : Std.TreeSet Text := ∅

namespace Allocator

def empty (rootName : Text) : Allocator := { rootName }

def guarded (base : Text) : Text :=
  if base.head?.any CodePoint.isDigit then CodePoint.ofChar '_' :: base else base

def baseName (a : Allocator) (keys : List Text) : Text :=
  let spelled := keys.flatMap Text.pascal
  guarded (if spelled.isEmpty then a.rootName else spelled)

def numbered (base : Text) (count : Nat) : Text :=
  if count = 1 then base else base ++ Text.ofNat count

def searchFrom (a : Allocator) (base : Text) : Nat → Nat → Nat
  | 0, count => count
  | fuel + 1, count =>
    if a.produced.contains (numbered base count) then a.searchFrom base fuel (count + 1) else count

/-- The first count from the given one on whose name is free. Among one more names than were produced
one is free, so the search need not go further. -/
def freeCount (a : Allocator) (base : Text) (count : Nat) : Nat :=
  a.searchFrom base (a.produced.size + 1) count

def allocate (a : Allocator) (keys : List Text) : Text × Allocator :=
  let base := a.baseName keys
  let count := a.freeCount base (a.used.getD base 0 + 1)
  let name := numbered base count
  (name, { a with used := a.used.insert base count, produced := a.produced.insert name })

/-- Take a name that no path spells. -/
def reserve (a : Allocator) (name : Text) : Allocator :=
  { a with
    used := a.used.insert name (a.used.getD name 0 + 1)
    produced := a.produced.insert name }

def reset (a : Allocator) : Allocator := empty a.rootName

end Allocator

end JsonShape
