import JsonShape.Number.Double

/-! Shortest decimals.

A finite number is written with the fewest digits that read back as it, and of several such decimals
with the nearest, halfway between two with the even one. Decimal points stand where the exponent of ten
is at least `-4` and below `16`, with at least one digit on both sides; other numbers have an exponent
with a sign and two or more digits.
-/

set_option autoImplicit false

namespace JsonShape.Double

structure Decimal where
  digits : Nat
  exponent : Int
  deriving DecidableEq

/-- Places of the whole part of a positive quotient: the least power of ten above it. -/
def magnitude (num den : Nat) : Int :=
  ((Nat.repr (num * Nat.pow 10 400 / den)).length : Int) - 400

/-- Whether a decimal reads back as the number with the given mantissa and exponent: it lies between the
midpoints to the neighbours, or on one of them if the mantissa is even. -/
def readsBack (mantissa : Nat) (exponent : Int) (d : Decimal) : Bool :=
  let lowerGap := if mantissa = mantissaStart && minExponent < exponent then 1 else 2
  let (num, den) := scaled 10 d.digits 1 (-d.exponent)
  let (low, unit) := scaled 2 (4 * mantissa - lowerGap) 4 (-exponent)
  let (high, _) := scaled 2 (4 * mantissa + 2) 4 (-exponent)
  let fromLow := compare (low * den) (num * unit)
  let toHigh := compare (num * unit) (high * den)
  if mantissa % 2 = 0 then fromLow.isLE && toHigh.isLE else fromLow.isLT && toHigh.isLT

/-- The decimal with a number of digits that reads back, if there is one: one of the two neighbours
of the number on that grid, the nearer first, and halfway between them the even one. -/
def decimalWith? (mantissa : Nat) (exponent : Int) (count : Nat) : Option Decimal :=
  let (num, den) := scaled 2 mantissa 1 (-exponent)
  let power := magnitude num den - count
  let (n, d) := scaled 10 num den power
  let below : Decimal := ⟨n / d, power⟩
  let above : Decimal := ⟨n / d + 1, power⟩
  let nearer := if roundQuotient n d = n / d then [below, above] else [above, below]
  nearer.find? (readsBack mantissa exponent)

def shortest (mantissa : Nat) (exponent : Int) : Decimal :=
  ((List.range 17).findSome? fun count => decimalWith? mantissa exponent (count + 1)).getD ⟨0, 0⟩

def trimmed (digits : List Char) : List Char := (digits.reverse.dropWhile (· = '0')).reverse

def zeros (n : Int) : List Char := List.replicate n.toNat '0'

def exponentText (e : Int) : List Char :=
  let digits := Nat.toDigits 10 e.natAbs
  'e' :: (if e < 0 then '-' else '+') :: (zeros (2 - digits.length) ++ digits)

/-- Digits with a point behind as many of them as the whole part has places. -/
def layout (digits : List Char) (places : Int) : List Char :=
  if -3 ≤ places && places ≤ 16 then
    if places ≤ 0 then '0' :: '.' :: (zeros (-places) ++ digits)
    else if (digits.length : Int) ≤ places then
      digits ++ zeros (places - digits.length) ++ ['.', '0']
    else digits.take places.toNat ++ '.' :: digits.drop places.toNat
  else
    match digits with
    | [d] => d :: exponentText (places - 1)
    | d :: rest => d :: '.' :: (rest ++ exponentText (places - 1))
    | [] => []

def render : Double → Text
  | .nan => "nan"
  | .infinite negative => if negative then "-inf" else "inf"
  | .finite negative mantissa exponent =>
    let written :=
      if mantissa = 0 then ['0', '.', '0']
      else
        let d := shortest mantissa exponent
        let digits := Nat.toDigits 10 d.digits
        layout (trimmed digits) (digits.length + d.exponent)
    let signed := if negative then '-' :: written else written
    signed.map CodePoint.ofChar

end JsonShape.Double
