import JsonShape.Text.CodePoint

/-! Paths into a JSON value.

A path lists the keys and indices that lead from the root to a place. Written out, an index stands in
brackets and a key follows a point, unless nothing has been written before it.
-/

set_option autoImplicit false

namespace JsonShape

inductive Segment where
  | key (name : Text)
  | index (i : Int)
  deriving DecidableEq

abbrev Path := List Segment

namespace Segment

def key? : Segment → Option Text
  | .key name => some name
  | .index _ => none

def extend (written : Text) : Segment → Text
  | .index i => written ++ "[" ++ Text.ofInt i ++ "]"
  | .key name => if written.isEmpty then name else written ++ "." ++ name

end Segment

namespace Path

def format (path : Path) : Text := path.foldl Segment.extend []

def keys (path : Path) : List Text := path.filterMap Segment.key?

/-- The path as shown in a message, where the root has a name. -/
def display (path : Path) : Text := if (format path).isEmpty then "root" else format path

end Path

end JsonShape
