import JsonShape.Document.Declarations
import JsonShape.Document.Dialect

/-! Example values.

An example is a value of the shape, indented by its depth, in a snippet that shows how the other
documents are used. A union is shown by its first variant other than null, and a nullable property by
null. A union without variants has no example.
-/

set_option autoImplicit false

namespace JsonShape

namespace Shape

/-- The variant that stands for a union. -/
def representative? (variants : List Shape) : Option Shape :=
  (variants.find? (!·.isNull)).or variants.head?

mutual

def showsEmptyUnion : Shape → Bool
  | .array element => showsEmptyUnion element
  | .union variants => variants.isEmpty || representativeShowsEmptyUnion variants
  | .object _ properties => propertyShowsEmptyUnion properties
  | _ => false

def representativeShowsEmptyUnion : List Shape → Bool
  | [] => false
  | s :: rest => if s.isNull then representativeShowsEmptyUnion rest else showsEmptyUnion s

def propertyShowsEmptyUnion : List (Property Shape) → Bool
  | [] => false
  | p :: rest => (!p.nullable && showsEmptyUnion p.shape) || propertyShowsEmptyUnion rest

end

end Shape

namespace Example

def indent (depth : Nat) : Text := List.replicate (2 * depth) ' '

/-- The nodes shown: a union by one variant, an object by its properties that are not null. -/
def children (s : Shape) (depth : Nat) : List (Shape × Nat) :=
  match s with
  | .array element => [(element, depth)]
  | .union variants => ((Shape.representative? variants).map fun v => (v, depth)).toList
  | .object _ properties =>
    (properties.filter (!·.nullable)).map fun p => (p.shape, depth + 1)
  | _ => []

/-- The lines of an object, taking the texts of the properties that are not nullable in turn. -/
def lines (style : Style) (depth : Nat) : List (Property Shape) → List Text → List Text
  | [], _ => []
  | p :: rest, values =>
    let line (value : Text) : Text :=
      indent (depth + 1) ++ style.keyName p.key ++ ": " ++ value ++ ","
    if p.nullable then line "null" :: lines style depth rest values
    else line (values.headD []) :: lines style depth rest values.tail

def write (style : Style) (s : Shape) (depth : Nat) (parts : List Text) : Text :=
  match s with
  | .string => "\"\""
  | .number => "0"
  | .boolean => "false"
  | .null => "null"
  | .unknown => "undefined"
  | .date => "\"2025-01-01T00:00:00.000Z\""
  | .array _ => "[" ++ parts.headD [] ++ "]"
  | .union _ => parts.headD []
  | .object _ properties =>
    if properties.isEmpty then "\x7b\x7d"
    else
      "\x7b\n" ++ Text.joined "\n" (lines style depth properties parts) ++ "\n" ++ indent depth ++
        "\x7d"

theorem size_le_of_representative {variants : List Shape} {s : Shape}
    (found : Shape.representative? variants = some s) : s.size ≤ Shape.sizeAll variants := by
  apply Shape.size_le_sizeAll
  rcases Option.or_eq_some_iff.1 found with first | ⟨_, head⟩
  · exact List.mem_of_find?_eq_some first
  · exact List.mem_of_head? head

theorem sizeAll_shown_le (properties : List (Property Shape)) :
    Shape.sizeAll ((properties.filter (!·.nullable)).map (·.shape)) ≤
      Shape.sizeProperties properties := by
  induction properties with
  | nil => exact Nat.le_refl _
  | cons p rest ih =>
    rw [List.filter_cons, Shape.sizeProperties]
    split
    · rw [List.map_cons, Shape.sizeAll]; omega
    · omega

theorem children_smaller (s : Shape) (depth : Nat) :
    Shape.sizeAll ((children s depth).map (·.1)) < s.size := by
  cases s with
  | union variants =>
    cases found : Shape.representative? variants with
    | none => simp [children, found, Shape.size, Shape.sizeAll]
    | some v =>
      have bound := size_le_of_representative found
      simp only [children, found, Option.map_some, Option.toList_some, List.map_cons, List.map_nil,
        Shape.sizeAll, Shape.size]
      omega
  | object name properties =>
    have bound := sizeAll_shown_le properties
    simp only [children, List.map_map, Function.comp_def, Shape.size]
    omega
  | _ => simp [children, Shape.size, Shape.sizeAll]

def dialect (style : Style) : Dialect where
  children := children
  write := write style
  children_smaller := children_smaller

def valueOf (style : Style) (s : Shape) (depth : Nat) : Text := (dialect style).render s depth

def document (style : Style) (s : Shape) : Text :=
  let root := style.rootName
  let schema := root.schemaName
  "// Import your generated types and schemas:\n" ++
    "// import type \x7b " ++ root ++ " \x7d from \"./types\";\n" ++
    "// import \x7b " ++ schema ++ " \x7d from \"./schema\";\n\n" ++
    "// Using TypeScript type directly:\n" ++
    "const example: " ++ root ++ " = " ++ valueOf style s 0 ++ ";\n\n" ++
    "// Using Zod inferred type (equivalent):\n" ++
    "// type " ++ root ++ "Inferred = z.infer<typeof " ++ schema ++ ">;\n\n" ++
    "// Validating at runtime:\n" ++
    "// const parsed = " ++ schema ++ ".parse(example);\n" ++
    "// const safeParsed = " ++ schema ++ ".safeParse(example);\n"

end Example

end JsonShape
