import JsonShape.Shape.Equality

/-! Merging shapes into one.

Shapes seen at the same place are merged: unions among them are replaced by their variants, of
structurally equal shapes the first is kept, and the unknown shape gives way to any other. What remains
is one shape or a union of several, in the order they were first seen.
-/

set_option autoImplicit false

namespace JsonShape.Shape

def flattenInto (found pending : List Shape) : List Shape :=
  match pending with
  | [] => found
  | .union variants :: rest => flattenInto found (variants ++ rest)
  | s :: rest => flattenInto (s :: found) rest
termination_by sizeAll pending
decreasing_by
  · rw [sizeAll_append]
    simp only [sizeAll, size]
    omega
  · have positive := size_pos s
    simp only [sizeAll]
    omega

def flatten (shapes : List Shape) : List Shape := (flattenInto [] shapes).reverse

/-- Keep a shape unless one of its class was kept before. The kept shapes are listed newest first. -/
def keep (kept : List Shape) (s : Shape) : List Shape :=
  if kept.any (same · s) then kept else s :: kept

def distinct (shapes : List Shape) : List Shape := (shapes.foldl keep []).reverse

def ofVariants : List Shape → Shape
  | [s] => s
  | variants => .union variants

/-- The known shapes, or all of them if none is known. -/
def preferKnown (shapes : List Shape) : List Shape :=
  let known := shapes.filter (!·.isUnknown)
  if known.isEmpty then shapes else known

def merge (shapes : List Shape) : Shape :=
  if shapes.isEmpty then .unknown else ofVariants (preferKnown (distinct (flatten shapes)))

end JsonShape.Shape
