import JsonShape.Document.Declarations
import JsonShape.Document.Dialect

/-! Validating schemas.

Each object is declared as a schema constant under its own keys, whatever the property names elsewhere,
so that the schemas accept the samples as they are. The document ends with the type of the root.
-/

set_option autoImplicit false

namespace JsonShape.Zod

def write (style : Style) (s : Shape) (_depth : Nat) (parts : List Text) : Text :=
  match s with
  | .string => "z.string()"
  | .date => if style.checksDates then "z.string().datetime()" else "z.string()"
  | .number => "z.number()"
  | .boolean => "z.boolean()"
  | .null => "z.null()"
  | .unknown => "z.unknown()"
  | .array _ => "z.array(" ++ parts.headD [] ++ ")"
  | .union _ => "z.union([" ++ Text.joined ", " parts ++ "])"
  | .object name _ => name.schemaName

def dialect (style : Style) : Dialect where
  children := Shape.parts
  write := write style
  children_smaller := Shape.parts_smaller

def schemaOf (style : Style) (s : Shape) : Text := (dialect style).render s 0

def field (style : Style) (p : Property Shape) : Text :=
  let nullable : Text := if p.nullable then ".nullable()" else []
  let optional : Text := if p.optional then ".optional()" else []
  "  " ++ p.key.propertyKey ++ ": " ++ schemaOf style p.shape ++ nullable ++ optional ++ ",\n"

def block (style : Style) (r : Record) : Text :=
  let closing : Text := if style.strict then "\x7d).strict();" else "\x7d);"
  "export const " ++ r.name.schemaName ++ " = z.object(\x7b\n" ++
    r.properties.flatMap (field style) ++ closing

def rootSchema (style : Style) (s : Shape) : List Text :=
  if s.isObject then []
  else ["export const " ++ style.rootName.schemaName ++ " = " ++ schemaOf style s ++ ";"]

def rootType (style : Style) : Text :=
  "export type " ++ style.rootName ++ " = z.infer<typeof " ++ style.rootName.schemaName ++ ">;"

def document (style : Style) (s : Shape) : Text :=
  Text.ofBlocks
    (("import \x7b z \x7d from \"zod\";" : Text) :: s.declarationOrder.map (block style) ++
      rootSchema style s ++ [rootType style])

end JsonShape.Zod
