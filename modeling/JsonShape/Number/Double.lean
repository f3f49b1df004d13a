import JsonShape.Json.Value

/-! Binary floating point numbers of double precision.

A finite number is a mantissa below `2 ^ 53` times a power of two. A decimal numeral stands for the
nearest such number; halfway between two the one with an even mantissa is taken, and numerals beyond
the largest are infinite.
-/

set_option autoImplicit false

namespace JsonShape

inductive Double where
  | finite (negative : Bool) (mantissa : Nat) (exponent : Int)
  | infinite (negative : Bool)
  | nan
  deriving DecidableEq

namespace Double

def minExponent : Int := -1074

def maxExponent : Int := 971

def mantissaBound : Nat := Nat.pow 2 53

/-- Numbers with larger exponents than the smallest have mantissas from this power of two on. -/
def mantissaStart : Nat := Nat.pow 2 52

def roundQuotient (num den : Nat) : Nat :=
  let below := num / den
  let rest := 2 * (num % den)
  if rest < den then below
  else if den < rest then below + 1
  else if below % 2 = 0 then below else below + 1

def scaled (base num den : Nat) (exponent : Int) : Nat × Nat :=
  match exponent with
  | .ofNat e => (num, den * Nat.pow base e)
  | .negSucc e => (num * Nat.pow base (e + 1), den)

def ofQuotient (negative : Bool) (num den : Nat) : Double :=
  let guess := max ((num.log2 : Int) - den.log2 - 53) minExponent
  let (n, d) := scaled 2 num den guess
  let exponent := if mantissaBound ≤ n / d then guess + 1 else guess
  let (n, d) := scaled 2 num den exponent
  let mantissa := roundQuotient n d
  let (mantissa, exponent) :=
    if mantissa = mantissaBound then (mantissaStart, exponent + 1) else (mantissa, exponent)
  if maxExponent < exponent then .infinite negative else .finite negative mantissa exponent

/-- The number nearest to an integer times a power of ten. Powers far outside the range of finite numbers
are not computed. -/
def ofDecimal (negative : Bool) (digits : Nat) (exponent : Int) : Double :=
  let size : Int := (Nat.repr digits).length
  if digits = 0 || size + exponent < -400 then .finite negative 0 minExponent
  else if 400 < size + exponent then .infinite negative
  else
    let (n, d) := scaled 10 digits 1 (-exponent)
    ofQuotient negative n d

/-- The power of ten in a numeral; one too long to matter is cut off at a bound that still decides. -/
def exponentOf (n : Json.Numeral) : Int :=
  let digits := n.exponent.dropWhile (·.val = 0)
  let size := if 20 < digits.length then Nat.pow 10 20 else Json.ofDigits digits
  if n.exponentNegative then -(size : Int) else (size : Int)

def ofNumeral (n : Json.Numeral) : Double :=
  ofDecimal n.negative (Json.ofDigits (n.whole ++ n.fraction)) (exponentOf n - n.fraction.length)

def isZero : Double → Bool
  | .finite _ mantissa _ => mantissa = 0
  | _ => false

def equalsNat (x : Double) (n : Nat) : Bool :=
  match x with
  | .finite negative mantissa exponent =>
    let (m, d) := scaled 2 mantissa 1 (-exponent)
    m = n * d && (!negative || n = 0)
  | _ => false

end Double

end JsonShape
