import JsonShape.Document.TypeScript
import JsonShape.Document.Zod

/-! Rendering follows the tree.

A visit puts the text of its node before the texts already written and changes nothing else, so the tasks
write what the recursion writes. Type and schema expressions have no depth, which leaves one equation for
each kind of node.
-/

set_option autoImplicit false

namespace JsonShape

namespace Dialect

theorem compose_eq (d : Dialect) (s : Shape) (depth : Nat) :
    d.compose s depth =
      d.write s depth ((d.children s depth).map fun child => d.compose child.1 child.2) := by
  rw [compose]
  exact congrArg (d.write s depth)
    (List.attach_map_val (f := fun child : Shape × Nat => d.compose child.1 child.2))

/-- A shape is visited faithfully when its text comes before the texts already written. -/
def Faithful (d : Dialect) (s : Shape) : Prop :=
  ∀ depth rest texts, d.run (.visit s depth :: rest) texts = d.run rest (d.compose s depth :: texts)

theorem run_visits {d : Dialect} {children : List (Shape × Nat)}
    (faithful : ∀ child ∈ children, d.Faithful child.1) (rest : List Task) (texts : List Text) :
    d.run (children.map (fun (c, e) => .visit c e) ++ rest) texts =
      d.run rest ((children.map fun child => d.compose child.1 child.2).reverse ++ texts) := by
  induction children generalizing texts with
  | nil => rfl
  | cons child later ih =>
    rw [List.map_cons, List.cons_append, faithful child List.mem_cons_self,
      ih fun c member => faithful c (List.mem_cons_of_mem child member)]
    simp

theorem faithful (d : Dialect) (s : Shape) : d.Faithful s := by
  intro depth rest texts
  have below : ∀ child ∈ d.children s depth, d.Faithful child.1 := fun child member =>
    have smaller : child.1.size < s.size := size_lt_of_child member
    d.faithful child.1
  rw [run, expand, List.append_assoc, run_visits below, List.singleton_append, run, compose_eq]
  -- the texts of the children are the ones last written, newest first
  rw [List.take_left' (by simp), List.drop_left' (by simp), List.reverse_reverse]
termination_by s.size

theorem render_eq (d : Dialect) (s : Shape) (depth : Nat) : d.render s depth = d.compose s depth := by
  rw [render, d.faithful, run]
  rfl

end Dialect

/-! ## Expressions

Type and schema expressions have no depth.
-/

theorem Shape.map_parts (s : Shape) (depth : Nat) (f : Shape → Nat → Text) :
    (s.parts depth).map (fun part => f part.1 part.2) =
      match s with
      | .array element => [f element depth]
      | .union variants => variants.map (f · depth)
      | _ => [] := by
  cases s <;> simp [parts, Function.comp_def]

namespace TypeScript

theorem typeOf_eq (s : Shape) :
    typeOf s = write s 0 (match s with
      | .array element => [typeOf element]
      | .union variants => variants.map typeOf
      | _ => []) := by
  rw [typeOf, Dialect.render_eq, Dialect.compose_eq]
  change write s 0 ((s.parts 0).map _) = _
  rw [Shape.map_parts s 0 dialect.compose]
  refine congrArg (write s 0) ?_
  cases s <;> simp [typeOf, Dialect.render_eq]

theorem typeOf_array (element : Shape) :
    typeOf (.array element) =
      if element.isUnion then "(" ++ typeOf element ++ ")[]" else typeOf element ++ "[]" :=
  typeOf_eq (.array element)

theorem typeOf_union (variants : List Shape) :
    typeOf (.union variants) = Text.joined " | " (variants.map typeOf) :=
  typeOf_eq (.union variants)

theorem typeOf_object (name : Text) (properties : List (Property Shape)) :
    typeOf (.object name properties) = name :=
  typeOf_eq (.object name properties)

def beforeType (style : Style) (p : Property Shape) : Text :=
  let mark : Text := if p.optional then "?" else []
  "  " ++ style.keyName p.key ++ mark ++ ": "

def afterType (p : Property Shape) : Text :=
  let orNull : Text := if p.nullable then " | null" else []
  orNull ++ ";\n"

theorem field_eq (style : Style) (p : Property Shape) :
    field style p = beforeType style p ++ typeOf p.shape ++ afterType p := by
  simp only [field, beforeType, afterType, List.append_assoc]

end TypeScript

namespace Zod

variable (style : Style)

theorem schemaOf_eq (s : Shape) :
    schemaOf style s = write style s 0 (match s with
      | .array element => [schemaOf style element]
      | .union variants => variants.map (schemaOf style)
      | _ => []) := by
  rw [schemaOf, Dialect.render_eq, Dialect.compose_eq]
  change write style s 0 ((s.parts 0).map _) = _
  rw [Shape.map_parts s 0 (dialect style).compose]
  refine congrArg (write style s 0) ?_
  cases s <;> simp [schemaOf, Dialect.render_eq]

theorem schemaOf_array (element : Shape) :
    schemaOf style (.array element) = "z.array(" ++ schemaOf style element ++ ")" :=
  schemaOf_eq style (.array element)

theorem schemaOf_union (variants : List Shape) :
    schemaOf style (.union variants) =
      "z.union([" ++ Text.joined ", " (variants.map (schemaOf style)) ++ "])" :=
  schemaOf_eq style (.union variants)

theorem schemaOf_object (name : Text) (properties : List (Property Shape)) :
    schemaOf style (.object name properties) = name.schemaName :=
  schemaOf_eq style (.object name properties)

def beforeSchema (p : Property Shape) : Text := "  " ++ p.key.propertyKey ++ ": "

def afterSchema (p : Property Shape) : Text :=
  let nullable : Text := if p.nullable then ".nullable()" else []
  let optional : Text := if p.optional then ".optional()" else []
  nullable ++ optional ++ ",\n"

theorem field_eq (p : Property Shape) :
    field style p = beforeSchema p ++ schemaOf style p.shape ++ afterSchema p := by
  simp only [field, beforeSchema, afterSchema, List.append_assoc]

end Zod

end JsonShape
