import JsonShape.Naming.Identifier
import JsonShape.Shape.Basic

/-! The objects of a shape.

Every object inside a shape gets a declaration of its own. Objects are found from the outside in, the
properties, elements and variants of a node in their order, and declared the other way round, so that
each stands before the objects that refer to it.
-/

set_option autoImplicit false

namespace JsonShape

namespace Shape

def inside : Shape → List Shape
  | .array element => [element]
  | .union variants => variants
  | .object _ properties => properties.map (·.shape)
  | _ => []

theorem sizeAll_inside_lt (s : Shape) : sizeAll s.inside < s.size := by
  cases s <;> simp [inside, size, sizeAll, sizeProperties_eq]

/-- Add the objects of the pending shapes to those already found, newest first. -/
def recordsInto (found : List Record) (pending : List Shape) : List Record :=
  match pending with
  | [] => found
  | s :: rest => recordsInto (s.record?.toList ++ found) (s.inside ++ rest)
termination_by sizeAll pending
decreasing_by
  have smaller := sizeAll_inside_lt s
  rw [sizeAll_append, sizeAll]
  omega

def records (s : Shape) : List Record := (recordsInto [] [s]).reverse

/-- The objects in the order in which they are declared. -/
def declarationOrder (s : Shape) : List Record := s.records.reverse

mutual

def preorder : Shape → List Record
  | .array element => preorder element
  | .union variants => preorderVariants variants
  | .object name properties => ⟨name, properties⟩ :: preorderProperties properties
  | _ => []

def preorderVariants : List Shape → List Record
  | [] => []
  | s :: rest => preorder s ++ preorderVariants rest

def preorderProperties : List (Property Shape) → List Record
  | [] => []
  | p :: rest => preorder p.shape ++ preorderProperties rest

end

end Shape

namespace Text

def ofBlocks (blocks : List Text) : Text := joined "\n\n" blocks ++ "\n"

end Text

end JsonShape
