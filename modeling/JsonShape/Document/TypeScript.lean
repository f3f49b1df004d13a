import JsonShape.Document.Declarations
import JsonShape.Document.Dialect

/-! Type declarations.

Each object is declared as a type or an interface, and a root that is no object gets an alias. A comment
before a declaration tells which properties were renamed.
-/

set_option autoImplicit false

namespace JsonShape.TypeScript

/-- A type expression. A date is a string, and a union is bracketed as the element of an array. -/
def write (s : Shape) (_depth : Nat) (parts : List Text) : Text :=
  match s with
  | .string | .date => "string"
  | .number => "number"
  | .boolean => "boolean"
  | .null => "null"
  | .unknown => "unknown"
  | .array element =>
    if element.isUnion then "(" ++ parts.headD [] ++ ")[]" else parts.headD [] ++ "[]"
  | .union _ => Text.joined " | " parts
  | .object name _ => name

def dialect : Dialect where
  children := Shape.parts
  write := write
  children_smaller := Shape.parts_smaller

def typeOf (s : Shape) : Text := dialect.render s 0

def field (style : Style) (p : Property Shape) : Text :=
  let mark : Text := if p.optional then "?" else []
  let orNull : Text := if p.nullable then " | null" else []
  "  " ++ style.keyName p.key ++ mark ++ ": " ++ typeOf p.shape ++ orNull ++ ";\n"

def mapping (key : Text) : Text :=
  "  // \"" ++ key.camel ++ "\" maps to JSON key \"" ++ key ++ "\"\n"

def mappings (style : Style) (r : Record) : Text :=
  let renamed := if style.camelKeys then (r.properties.map (·.key)).filter Text.isSnake else []
  if renamed.isEmpty then [] else "/**\n" ++ renamed.flatMap mapping ++ " */\n"

def block (style : Style) (r : Record) : Text :=
  let opening : Text :=
    if style.interfaces then "export interface " ++ r.name ++ " \x7b\n"
    else "export type " ++ r.name ++ " = \x7b\n"
  let closing : Text := if style.interfaces then "\x7d" else "\x7d;"
  mappings style r ++ opening ++ r.properties.flatMap (field style) ++ closing

def rootAlias (style : Style) (s : Shape) : List Text :=
  if s.isObject then [] else ["export type " ++ style.rootName ++ " = " ++ typeOf s ++ ";"]

def document (style : Style) (s : Shape) : Text :=
  Text.ofBlocks (s.declarationOrder.map (block style) ++ rootAlias style s)

end JsonShape.TypeScript
