import JsonShape.Json.Value
import JsonShape.Text.Alphanumeric

/-! Numerals.

A numeral is a sign, a whole part without leading zeros, a fraction and an exponent, of which only the
whole part must be there. The longest numeral at the front of a text is taken: a point or an exponent
letter without digits after it is left where it is.
-/

set_option autoImplicit false

namespace JsonShape.Json

def digitValue (c : CodePoint) : Digit := Digit.last (c.val - 0x30)

def scanDigits (t : Text) : List Digit × Text :=
  ((t.takeWhile CodePoint.isAsciiDigit).map digitValue, t.dropWhile CodePoint.isAsciiDigit)

/-- The whole part: a zero alone, or digits that start with another. -/
def scanWhole? : Text → Option (List Digit × Text)
  | [] => none
  | c :: rest =>
    if c = '0' then some ([Digit.last 0], rest)
    else if c.isAsciiDigit then some (scanDigits (c :: rest))
    else none

def scanFraction (t : Text) : List Digit × Text :=
  match t with
  | [] => ([], [])
  | c :: rest =>
    if c = '.' then
      match scanDigits rest with
      | ([], _) => ([], t)
      | (digits, after) => (digits, after)
    else ([], t)

def scanSign : Text → Bool × Text
  | [] => (false, [])
  | c :: rest => if c = '-' then (true, rest) else if c = '+' then (false, rest) else (false, c :: rest)

def scanExponent (t : Text) : Bool × List Digit × Text :=
  match t with
  | [] => (false, [], [])
  | c :: rest =>
    if c = 'e' ∨ c = 'E' then
      match scanDigits (scanSign rest).2 with
      | ([], _) => (false, [], t)
      | (digits, after) => ((scanSign rest).1, digits, after)
    else (false, [], t)

def scanMinus (t : Text) : Bool × Text :=
  match t with
  | [] => (false, [])
  | c :: rest => if c = '-' then (true, rest) else (false, t)

def scanNumeral? (t : Text) : Option (Numeral × Text) := do
  let (whole, rest) ← scanWhole? (scanMinus t).2
  let (fraction, rest) := scanFraction rest
  let (exponentNegative, exponent, rest) := scanExponent rest
  some (⟨(scanMinus t).1, whole, fraction, exponentNegative, exponent⟩, rest)

theorem length_dropWhile_le {α : Type} (p : α → Bool) (l : List α) :
    (l.dropWhile p).length ≤ l.length := by
  induction l with
  | nil => exact Nat.le_refl _
  | cons a l ih =>
    rw [List.dropWhile_cons]
    split
    · exact Nat.le_succ_of_le ih
    · exact Nat.le_refl _

theorem scanWhole?_shorter {t rest : Text} {digits : List Digit}
    (found : scanWhole? t = some (digits, rest)) : rest.length < t.length := by
  unfold scanWhole? at found
  split at found
  · cases found
  · next c tail =>
    split at found
    · cases found; exact Nat.lt_succ_self _
    · split at found
      · next isDigit =>
        cases found
        rw [List.dropWhile_cons, if_pos isDigit]
        exact Nat.lt_succ_of_le (length_dropWhile_le _ _)
      · cases found

theorem scanFraction_length_le (t : Text) : (scanFraction t).2.length ≤ t.length := by
  unfold scanFraction
  split
  · exact Nat.le_refl _
  · next c rest =>
    split
    · split
      · exact Nat.le_refl _
      · next digits after _ found =>
        have same : after = rest.dropWhile CodePoint.isAsciiDigit := (congrArg Prod.snd found).symm
        rw [same]
        exact Nat.le_succ_of_le (length_dropWhile_le _ _)
    · exact Nat.le_refl _

theorem scanSign_length_le (t : Text) : (scanSign t).2.length ≤ t.length := by
  unfold scanSign
  split
  · exact Nat.le_refl _
  · split
    · exact Nat.le_succ _
    · split
      · exact Nat.le_succ _
      · exact Nat.le_refl _

theorem scanExponent_length_le (t : Text) : (scanExponent t).2.2.length ≤ t.length := by
  unfold scanExponent
  split
  · exact Nat.le_refl _
  · next c rest =>
    split
    · split
      · exact Nat.le_refl _
      · next digits after _ found =>
        have same : after = (scanSign rest).2.dropWhile CodePoint.isAsciiDigit :=
          (congrArg Prod.snd found).symm
        have shorter := length_dropWhile_le CodePoint.isAsciiDigit (scanSign rest).2
        have signed := scanSign_length_le rest
        simp only [same, List.length_cons]
        omega
    · exact Nat.le_refl _

theorem scanMinus_length_le (t : Text) : (scanMinus t).2.length ≤ t.length := by
  unfold scanMinus
  split
  · exact Nat.le_refl _
  · split
    · exact Nat.le_succ _
    · exact Nat.le_refl _

theorem scanNumeral?_shorter {t rest : Text} {n : Numeral}
    (found : scanNumeral? t = some (n, rest)) : rest.length < t.length := by
  simp only [scanNumeral?, Option.bind_eq_bind, Option.bind_eq_some_iff, Option.some.injEq] at found
  obtain ⟨⟨whole, tail⟩, first, same⟩ := found
  have minus := scanMinus_length_le t
  have shorter := scanWhole?_shorter first
  have fraction := scanFraction_length_le tail
  have exponent := scanExponent_length_le (scanFraction tail).2
  rw [← (Prod.mk.inj same).2]
  exact Nat.lt_of_le_of_lt exponent (by omega)

end JsonShape.Json
