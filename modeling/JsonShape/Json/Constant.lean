import JsonShape.Json.Token

/-! The first bare constant of a text.

A constant inside a string literal is no constant, so literals are skipped from their opening mark to
the closing one. A mark that opens no complete literal on its lines is skipped alone.
-/

set_option autoImplicit false

namespace JsonShape.Json

/-- What follows a literal whose opening mark came before the text. A backslash goes with the code point
after it, which may not be a line feed. -/
def afterLiteral? : Text → Option Text
  | [] => none
  | [c] => if c = '"' then some [] else none
  | c :: d :: rest =>
    if c = '"' then some (d :: rest)
    else if c = '\\' then if d = '\n' then none else afterLiteral? rest
    else afterLiteral? (d :: rest)

def constantAt? (t : Text) : Option Constant :=
  [Constant.nan, .infinity, .negativeInfinity].find? fun c => c.name.isPrefixOf t

theorem afterLiteral?_length_le {t rest : Text} (found : afterLiteral? t = some rest) :
    rest.length ≤ t.length := by
  fun_induction afterLiteral? t with
  | case1 => cases found
  | case2 => cases found; exact Nat.zero_le _
  | case3 => cases found
  | case4 => cases found; exact Nat.le_succ _
  | case5 => cases found
  | case6 d tail _ _ ih => exact Nat.le_succ_of_le (Nat.le_succ_of_le (ih found))
  | case7 c d tail _ _ ih => exact Nat.le_succ_of_le (ih found)

/-- The text from the first constant outside of string literals on. -/
def fromConstant? (t : Text) : Option Text :=
  match t with
  | [] => none
  | c :: rest =>
    if c = '"' then
      match _closed : afterLiteral? rest with
      | some after => fromConstant? after
      | none => fromConstant? rest
    else if (constantAt? (c :: rest)).isSome then some (c :: rest)
    else fromConstant? rest
termination_by t.length
decreasing_by
  · have shorter := afterLiteral?_length_le _closed
    simp only [List.length_cons]
    omega
  · exact Nat.lt_succ_self _
  · exact Nat.lt_succ_self _

end JsonShape.Json
