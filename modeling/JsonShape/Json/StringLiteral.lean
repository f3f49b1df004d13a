import JsonShape.Json.Fault
import JsonShape.Text.Alphanumeric

/-! String literals.

A string literal ends at the first quotation mark that no backslash precedes. Control characters may
not stand in it. A four-digit escape must have something after it, and a high surrogate joins with a
low one that is escaped right after it; any other surrogate stays as it is.
-/

set_option autoImplicit false

namespace JsonShape.Json

def hexValue? (c : CodePoint) : Option Nat :=
  if c.isAsciiDigit then some (c.val - 0x30)
  else if 0x61 ≤ c.val && c.val ≤ 0x66 then some (c.val - 0x61 + 10)
  else if 0x41 ≤ c.val && c.val ≤ 0x46 then some (c.val - 0x41 + 10)
  else none

/-- The code point of four hexadecimal digits, which must not end the text. -/
def hexEscape? : Text → Option (CodePoint × Text)
  | a :: b :: c :: d :: e :: rest => do
    let a ← hexValue? a
    let b ← hexValue? b
    let c ← hexValue? c
    let d ← hexValue? d
    some (CodePoint.ofNat (((a * 16 + b) * 16 + c) * 16 + d), e :: rest)
  | _ => none

def lowSurrogate? : Text → Option (CodePoint × Text)
  | c :: d :: rest =>
    if c = '\\' ∧ d = 'u' then (hexEscape? rest).filter (·.1.isLowSurrogate) else none
  | _ => none

/-- The code point of an escape after its letter; a pair of surrogates is read as one. -/
def unicodeEscape? (t : Text) : Option (CodePoint × Text) :=
  match hexEscape? t with
  | none => none
  | some (high, rest) =>
    if high.isHighSurrogate then
      match lowSurrogate? rest with
      | some (low, rest) => some (CodePoint.joinSurrogates high low, rest)
      | none => some (high, rest)
    else some (high, rest)

def escapeMeaning? (c : CodePoint) : Option CodePoint :=
  if c = '"' then some '"'
  else if c = '\\' then some '\\'
  else if c = '/' then some '/'
  else if c = 'b' then some (CodePoint.ofNat 0x08)
  else if c = 'f' then some (CodePoint.ofNat 0x0C)
  else if c = 'n' then some '\n'
  else if c = 'r' then some '\r'
  else if c = 't' then some '\t'
  else none

theorem hexEscape?_shorter {t rest : Text} {c : CodePoint} (found : hexEscape? t = some (c, rest)) :
    rest.length < t.length := by
  unfold hexEscape? at found
  split at found
  · next a b c d e tail =>
    simp only [Option.bind_eq_bind, Option.bind_eq_some_iff, Option.some.injEq] at found
    obtain ⟨_, _, _, _, _, _, _, _, same⟩ := found
    cases same
    simp only [List.length_cons]
    omega
  · cases found

theorem lowSurrogate?_shorter {t rest : Text} {c : CodePoint}
    (found : lowSurrogate? t = some (c, rest)) : rest.length < t.length := by
  unfold lowSurrogate? at found
  split at found
  · next a b tail =>
    split at found
    · have shorter := hexEscape?_shorter (Option.filter_eq_some_iff.1 found).1
      simp only [List.length_cons]
      omega
    · cases found
  · cases found

theorem unicodeEscape?_shorter {t rest : Text} {c : CodePoint}
    (found : unicodeEscape? t = some (c, rest)) : rest.length < t.length := by
  unfold unicodeEscape? at found
  split at found
  · cases found
  · next high tail first =>
    have shorter := hexEscape?_shorter first
    split at found
    · split at found
      · next low after second =>
        have shorterStill := lowSurrogate?_shorter second
        simp only [Option.some.injEq, Prod.mk.injEq] at found
        rw [← found.2]
        omega
      · cases found; exact shorter
    · cases found; exact shorter

/-- The next code point of a string after a backslash, and what follows it. The text given starts with
the backslash, and `opening` with the mark that opened the literal. -/
def scanEscape (opening t : Text) : Except Fault (CodePoint × Text) :=
  match t.tail with
  | [] => .error ⟨.unterminatedString, opening⟩
  | e :: rest =>
    if e = 'u' then
      match unicodeEscape? rest with
      | some result => .ok result
      | none => .error ⟨.badUnicodeEscape, e :: rest⟩
    else
      match escapeMeaning? e with
      | some meaning => .ok (meaning, rest)
      | none => .error ⟨.badEscape, t⟩

theorem scanEscape_shorter {opening t rest : Text} {c : CodePoint}
    (found : scanEscape opening t = .ok (c, rest)) : rest.length < t.length := by
  unfold scanEscape at found
  split at found
  · cases found
  · next e tail isTail =>
    have longer : (e :: tail).length ≤ t.length := by
      rw [← isTail, List.length_tail]; exact Nat.sub_le _ _
    simp only [List.length_cons] at longer
    split at found
    · split at found
      · next result escape =>
        cases found
        have shorter := unicodeEscape?_shorter escape
        omega
      · cases found
    · split at found
      · cases found; omega
      · cases found

/-- A string literal after its opening mark: the string and what follows the literal. `opening` is the
text from that mark on, and `done` the string read so far, newest first. -/
def scanString (opening done t : Text) : Except Fault (Text × Text) :=
  match t with
  | [] => .error ⟨.unterminatedString, opening⟩
  | c :: rest =>
    if c = '"' then .ok (done.reverse, rest)
    else if c = '\\' then
      match _found : scanEscape opening (c :: rest) with
      | .ok (meaning, after) => scanString opening (meaning :: done) after
      | .error fault => .error fault
    else if c.val < 0x20 then .error ⟨.controlCharacter, c :: rest⟩
    else scanString opening (c :: done) rest
termination_by t.length
decreasing_by
  · exact scanEscape_shorter _found
  · exact Nat.lt_succ_self _

theorem scanString_length_le {opening done t s rest : Text}
    (found : scanString opening done t = .ok (s, rest)) : rest.length ≤ t.length := by
  fun_induction scanString opening done t with
  | case1 => cases found
  | case2 => cases found; exact Nat.le_succ _
  | case3 done tail meaning after _ escape ih =>
    exact Nat.le_trans (ih found) (Nat.le_of_lt (scanEscape_shorter escape))
  | case4 => cases found
  | case5 => cases found
  | case6 done c tail _ _ _ ih => exact Nat.le_succ_of_le (ih found)

end JsonShape.Json
