import JsonShape.Number.Shortest
import JsonShape.Text.Quoted

/-! Writing JSON values.

A value is written over several lines, with two more spaces for the contents of each container than for
the container. Empty containers take one line. Real numbers have the fewest digits that read back.
-/

set_option autoImplicit false

namespace JsonShape.Json

def Number.write : Number → Text
  | .integer i => Text.ofInt i
  | .real n => (Double.ofNumeral n).render
  | .constant c => c.name

namespace Value

def margin (depth : Nat) : Text := List.replicate (2 * depth) ' '

def spread (first last : Text) (depth : Nat) (items : List Text) : Text :=
  if items.isEmpty then first ++ last
  else
    first ++ "\n" ++ Text.joined ",\n" (items.map (margin (depth + 1) ++ ·)) ++ "\n" ++
      margin depth ++ last

mutual

def writeAt (depth : Nat) : Value → Text
  | .null => "null"
  | .bool b => if b then "true" else "false"
  | .number n => n.write
  | .string s => s.quoted
  | .array elements => spread "[" "]" depth (writeElements (depth + 1) elements)
  | .object members => spread "\x7b" "\x7d" depth (writeMembers (depth + 1) members)

def writeElements (depth : Nat) : List Value → List Text
  | [] => []
  | v :: rest => writeAt depth v :: writeElements depth rest

def writeMembers (depth : Nat) : List (Text × Value) → List Text
  | [] => []
  | (key, v) :: rest =>
    (key.quoted ++ ": " ++ writeAt depth v) :: writeMembers depth rest

end

def write (v : Value) : Text := writeAt 0 v

end Value

end JsonShape.Json
