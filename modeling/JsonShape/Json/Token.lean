import JsonShape.Json.Numeral
import JsonShape.Json.StringLiteral

/-! Tokens of a JSON text.

A token is scanned from its first code point on and takes as much of the text as it can. A string
literal that breaks off is a token as well and carries its fault, since only the reader knows whether
a string may stand there; a code point that starts no token is junk.
-/

set_option autoImplicit false

namespace JsonShape.Json

inductive Token where
  | openArray
  | closeArray
  | openObject
  | closeObject
  | comma
  | colon
  | null
  | bool (b : Bool)
  | numeral (n : Numeral)
  | constant (c : Constant)
  | string (s : Text)
  | broken (fault : Fault)
  | junk

def isSpace (c : CodePoint) : Bool := c = ' ' || c = '\t' || c = '\n' || c = '\r'

def skipSpace (t : Text) : Text := t.dropWhile isSpace

def after? : Text → Text → Option Text
  | [], t => some t
  | _ :: _, [] => none
  | c :: word, d :: t => if c = d then after? word t else none

theorem after?_eq_some {word t rest : Text} (found : after? word t = some rest) :
    t = word ++ rest := by
  fun_induction after? word t with
  | case1 => cases found; rfl
  | case2 => cases found
  | case3 c word t ih => rw [ih found, List.cons_append]
  | case4 => cases found

def scanWord (word : Text) (token : Token) (t : Text) : Option (Token × Text) :=
  (after? word t).map fun rest => (token, rest)

def scanConstant (c : Constant) (t : Text) : Option (Token × Text) :=
  scanWord c.name (.constant c) t

def scanNumber (t : Text) : Option (Token × Text) :=
  (scanNumeral? t).map fun (n, rest) => (.numeral n, rest)

def scanPlain (t : Text) : Option (Token × Text) :=
  (scanWord "null" .null t).or <|
  (scanWord "true" (.bool true) t).or <|
  (scanWord "false" (.bool false) t).or <|
  (scanConstant .nan t).or <|
  (scanConstant .infinity t).or <|
  (scanConstant .negativeInfinity t).or <|
  scanNumber t

/-- The token at a text that starts with the given code point, and what follows it. Scanning ends with
the text at junk and at a broken string. -/
def scan (c : CodePoint) (rest : Text) : Token × Text :=
  if c = '[' then (.openArray, rest)
  else if c = ']' then (.closeArray, rest)
  else if c = '\x7b' then (.openObject, rest)
  else if c = '\x7d' then (.closeObject, rest)
  else if c = ',' then (.comma, rest)
  else if c = ':' then (.colon, rest)
  else if c = '"' then
    match scanString (c :: rest) [] rest with
    | .ok (s, after) => (.string s, after)
    | .error fault => (.broken fault, [])
  else (scanPlain (c :: rest)).getD (.junk, [])

theorem scanWord_shorter {word t rest : Text} {token produced : Token} (nonempty : word ≠ [])
    (found : scanWord word token t = some (produced, rest)) : rest.length < t.length := by
  simp only [scanWord, Option.map_eq_some_iff] at found
  obtain ⟨after, isAfter, same⟩ := found
  cases same
  rw [after?_eq_some isAfter, List.length_append]
  have positive := List.length_pos_iff.2 nonempty
  omega

theorem scanConstant_shorter {c : Constant} {t rest : Text} {produced : Token}
    (found : scanConstant c t = some (produced, rest)) : rest.length < t.length :=
  scanWord_shorter (by cases c <;> decide) found

theorem scanNumber_shorter {t rest : Text} {produced : Token}
    (found : scanNumber t = some (produced, rest)) : rest.length < t.length := by
  simp only [scanNumber, Option.map_eq_some_iff] at found
  obtain ⟨⟨n, tail⟩, first, same⟩ := found
  cases same
  exact scanNumeral?_shorter first

theorem scanPlain_shorter {t rest : Text} {produced : Token}
    (found : scanPlain t = some (produced, rest)) : rest.length < t.length := by
  simp only [scanPlain, Option.or_eq_some_iff] at found
  rcases found with h | ⟨_, h | ⟨_, h | ⟨_, h | ⟨_, h | ⟨_, h | ⟨_, h⟩⟩⟩⟩⟩⟩
  · exact scanWord_shorter (by decide) h
  · exact scanWord_shorter (by decide) h
  · exact scanWord_shorter (by decide) h
  · exact scanConstant_shorter h
  · exact scanConstant_shorter h
  · exact scanConstant_shorter h
  · exact scanNumber_shorter h

theorem scan_length_le (c : CodePoint) (rest : Text) : (scan c rest).2.length ≤ rest.length := by
  unfold scan
  repeat' split
  iterate 6 exact Nat.le_refl _
  · next found => exact scanString_length_le found
  · exact Nat.zero_le _
  · cases plain : scanPlain (c :: rest) with
    | none => exact Nat.zero_le _
    | some result => exact Nat.le_of_lt_succ (scanPlain_shorter plain)

end JsonShape.Json
