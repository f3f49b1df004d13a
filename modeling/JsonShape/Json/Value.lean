import JsonShape.Text.CodePoint

/-! JSON values.

A real number keeps the digits it was written with, so that reading a text never rounds. Arrays keep
their elements and objects their members in the order of the text. An object that was read holds each
key once: a repeated key stays at its first place and takes the last value.
-/

set_option autoImplicit false

namespace JsonShape.Json

abbrev Digit := Fin 10

def Digit.last (n : Nat) : Digit := ⟨n % 10, Nat.mod_lt _ (by decide)⟩

/-- The digits of a number as written. The exponent counts from nothing when it has no digits. -/
structure Numeral where
  negative : Bool
  whole : List Digit
  fraction : List Digit
  exponentNegative : Bool
  exponent : List Digit
  deriving DecidableEq

inductive Constant where
  | nan
  | infinity
  | negativeInfinity
  deriving DecidableEq

def Constant.name : Constant → Text
  | .nan => "NaN"
  | .infinity => "Infinity"
  | .negativeInfinity => "-Infinity"

inductive Number where
  | integer (i : Int)
  | real (numeral : Numeral)
  | constant (c : Constant)
  deriving DecidableEq

inductive Value where
  | null
  | bool (b : Bool)
  | number (n : Number)
  | string (s : Text)
  | array (elements : List Value)
  | object (members : List (Text × Value))

instance : Inhabited Value := ⟨.null⟩

abbrev Member := Text × Value

/-- Induction on a value: whatever holds of the values inside a container holds of the container. -/
@[induction_eliminator]
theorem Value.induct {motive : Value → Prop} (null : motive .null) (bool : ∀ b, motive (.bool b))
    (number : ∀ n, motive (.number n)) (string : ∀ s, motive (.string s))
    (array : ∀ elements, (∀ v ∈ elements, motive v) → motive (.array elements))
    (object : ∀ members, (∀ m ∈ members, motive m.2) → motive (.object members))
    (v : Value) : motive v :=
  match v with
  | .null => null
  | .bool b => bool b
  | .number n => number n
  | .string s => string s
  | .array elements => array elements fun w _member =>
      induct null bool number string array object w
  | .object members => object members fun m _member =>
      induct null bool number string array object m.2
termination_by sizeOf v
decreasing_by
  · have smaller := List.sizeOf_lt_of_mem _member
    simp only [Value.array.sizeOf_spec]
    omega
  · have smaller := List.sizeOf_lt_of_mem _member
    obtain ⟨key, value⟩ := m
    simp only [Value.object.sizeOf_spec, Prod.mk.sizeOf_spec] at smaller ⊢
    omega

def lookup? (members : List Member) (key : Text) : Option Value := members.lookup key

theorem mem_of_lookup? {members : List Member} {key : Text} {v : Value}
    (found : lookup? members key = some v) : (key, v) ∈ members := by
  obtain ⟨before, after, rfl, _⟩ := List.lookup_eq_some_iff.1 found
  exact List.mem_append_right before List.mem_cons_self

/-- Set the value of a key, in place if the key is present and at the end otherwise. -/
def put (members : List Member) (key : Text) (value : Value) : List Member :=
  if members.any (·.1 = key) then members.map fun m => if m.1 = key then (key, value) else m
  else members ++ [(key, value)]

/-- Members in the order they were read, with each key at its first place and its last value. -/
def ofPairs (pairs : List Member) : List Member :=
  pairs.foldl (fun members (key, value) => put members key value) []

def ofDigits (digits : List Digit) : Nat := digits.foldl (fun n d => n * 10 + d.val) 0

def Numeral.isInteger (n : Numeral) : Bool := n.fraction.isEmpty && n.exponent.isEmpty

def Numeral.toInt (n : Numeral) : Int :=
  if n.negative then -(ofDigits n.whole : Int) else (ofDigits n.whole : Int)

end JsonShape.Json
