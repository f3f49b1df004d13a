import JsonShape.Text.CodePoint

/-! Shapes.

A shape describes the values seen at one place of the samples. An object shape has a name and lists its
properties in the order they were first seen, each key once. A property is optional when the key was
missing in some sample and nullable when its value was null in some sample.
-/

set_option autoImplicit false

namespace JsonShape

structure Property (α : Type) where
  key : Text
  shape : α
  optional : Bool := false
  nullable : Bool := false

inductive Shape where
  | string
  | number
  | boolean
  | null
  | date
  | unknown
  | array (element : Shape)
  | union (variants : List Shape)
  | object (name : Text) (properties : List (Property Shape))

instance : Inhabited Shape := ⟨.unknown⟩

structure Record where
  name : Text
  properties : List (Property Shape)

def Record.toShape (r : Record) : Shape := .object r.name r.properties

namespace Shape

def record? : Shape → Option Record
  | .object name properties => some ⟨name, properties⟩
  | _ => none

def isObject : Shape → Bool
  | .object _ _ => true
  | _ => false

theorem isObject_of_record? {s : Shape} (none : s.record? = none) : s.isObject = false := by
  cases s with
  | object name properties => cases none
  | _ => rfl

def isUnion : Shape → Bool
  | .union _ => true
  | _ => false

def isUnknown : Shape → Bool
  | .unknown => true
  | _ => false

def isNull : Shape → Bool
  | .null => true
  | _ => false

mutual

def size : Shape → Nat
  | .array element => size element + 1
  | .union variants => sizeAll variants + 1
  | .object _ properties => sizeProperties properties + 1
  | _ => 1

def sizeAll : List Shape → Nat
  | [] => 0
  | s :: rest => size s + sizeAll rest

def sizeProperties : List (Property Shape) → Nat
  | [] => 0
  | p :: rest => size p.shape + sizeProperties rest

end

theorem size_pos (s : Shape) : 0 < s.size := by
  cases s <;> simp [size]

@[simp] theorem sizeAll_append (ss rest : List Shape) :
    sizeAll (ss ++ rest) = sizeAll ss + sizeAll rest := by
  induction ss with
  | nil => simp [sizeAll]
  | cons s ss ih => simp only [List.cons_append, sizeAll, ih, Nat.add_assoc]

theorem sizeProperties_eq (properties : List (Property Shape)) :
    sizeProperties properties = sizeAll (properties.map (·.shape)) := by
  induction properties with
  | nil => rfl
  | cons p rest ih => simp only [sizeProperties, List.map_cons, sizeAll, ih]

theorem size_le_sizeAll {s : Shape} {shapes : List Shape} (member : s ∈ shapes) :
    s.size ≤ sizeAll shapes := by
  induction shapes with
  | nil => cases member
  | cons t rest ih =>
    rw [sizeAll]
    cases member with
    | head => exact Nat.le_add_right _ _
    | tail _ later => exact Nat.le_trans (ih later) (Nat.le_add_left _ _)

theorem size_le_sizeProperties {p : Property Shape} {properties : List (Property Shape)}
    (member : p ∈ properties) : p.shape.size ≤ sizeProperties properties := by
  rw [sizeProperties_eq]
  exact size_le_sizeAll (List.mem_map.2 ⟨p, member, rfl⟩)

/-- Induction on a shape: whatever holds of the shapes inside a node holds of the node. -/
@[induction_eliminator]
theorem induct {motive : Shape → Prop} (string : motive .string) (number : motive .number)
    (boolean : motive .boolean) (null : motive .null) (date : motive .date)
    (unknown : motive .unknown) (array : ∀ element, motive element → motive (.array element))
    (union : ∀ variants, (∀ s ∈ variants, motive s) → motive (.union variants))
    (object : ∀ name properties, (∀ p ∈ properties, motive p.shape) →
      motive (.object name properties))
    (s : Shape) : motive s :=
  have smaller (t : Shape) (_less : t.size < s.size) : motive t :=
    induct string number boolean null date unknown array union object t
  match s with
  | .string => string
  | .number => number
  | .boolean => boolean
  | .null => null
  | .date => date
  | .unknown => unknown
  | .array element => array element (smaller element (by simp [size]))
  | .union variants => union variants fun t member =>
      smaller t (Nat.lt_succ_of_le (size_le_sizeAll member))
  | .object name properties => object name properties fun p member =>
      smaller p.shape (Nat.lt_succ_of_le (size_le_sizeProperties member))
termination_by s.size

end Shape

def find? (properties : List (Property Shape)) (key : Text) : Option (Property Shape) :=
  properties.find? (·.key = key)

end JsonShape
