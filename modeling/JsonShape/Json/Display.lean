import JsonShape.Number.Shortest
import JsonShape.Text.Literal

/-! JSON values in messages, and what they mean as an option.

A message shows a value in a notation of its own, close to JSON. A value that stands where a yes or no is
asked for counts as no when it is null, false, zero or empty, and as yes otherwise.
-/

set_option autoImplicit false

namespace JsonShape.Json

def Number.toDouble? : Number → Option Double
  | .integer _ => none
  | .real n => some (Double.ofNumeral n)
  | .constant .nan => some .nan
  | .constant .infinity => some (.infinite false)
  | .constant .negativeInfinity => some (.infinite true)

def Number.display : Number → Text
  | .integer i => Text.ofInt i
  | n => (n.toDouble?.map Double.render).getD []

namespace Value

def enclosed (first last : Text) (items : List Text) : Text :=
  first ++ Text.joined ", " items ++ last

mutual

def display : Value → Text
  | .null => "None"
  | .bool b => if b then "True" else "False"
  | .number n => n.display
  | .string s => s.literal
  | .array elements => enclosed "[" "]" (displayElements elements)
  | .object members => enclosed "\x7b" "\x7d" (displayMembers members)

def displayElements : List Value → List Text
  | [] => []
  | v :: rest => display v :: displayElements rest

def displayMembers : List (Text × Value) → List Text
  | [] => []
  | (key, v) :: rest => (key.literal ++ ": " ++ display v) :: displayMembers rest

end

/-- A text stands for itself; any other value is displayed. -/
def plain : Value → Text
  | .string s => s
  | v => v.display

def holds : Value → Bool
  | .null => false
  | .bool b => b
  | .number (.integer i) => i ≠ 0
  | .number n => !(n.toDouble?.any Double.isZero)
  | .string s => !s.isEmpty
  | .array elements => !elements.isEmpty
  | .object members => !members.isEmpty

/-- Whether the value counts as a natural number, with false as zero and true as one. -/
def equalsNat (v : Value) (n : Nat) : Bool :=
  match v with
  | .bool b => b.toNat = n
  | .number (.integer i) => i = (n : Int)
  | .number x => x.toDouble?.any (·.equalsNat n)
  | _ => false

def kindName : Value → Text
  | .null => "NoneType"
  | .bool _ => "bool"
  | .number (.integer _) => "int"
  | .number _ => "float"
  | .string _ => "str"
  | .array _ => "list"
  | .object _ => "dict"

end Value

end JsonShape.Json
