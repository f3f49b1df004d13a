import JsonShape.Text.CodePoint

/-! Control sequences.

A control sequence tells a terminal what to do. It consists of an escape and an opening bracket,
parameters, intermediates and one final code point, each of these from a range of its own. Text that
does not go to a terminal is written without control sequences; what looks like the start of one but
has no final code point stays as it is.
-/

set_option autoImplicit false

namespace JsonShape

namespace CodePoint

def isEscape (c : CodePoint) : Bool := c.val = 0x1B

/-- Digits and `:;<=>?`. -/
def isControlParameter (c : CodePoint) : Bool := 0x30 ≤ c.val && c.val ≤ 0x3F

def isControlIntermediate (c : CodePoint) : Bool := 0x20 ≤ c.val && c.val ≤ 0x2F

def isControlFinal (c : CodePoint) : Bool := 0x40 ≤ c.val && c.val ≤ 0x7E

end CodePoint

namespace Text

def afterControlRest? (t : Text) : Option Text :=
  match (t.dropWhile CodePoint.isControlParameter).dropWhile CodePoint.isControlIntermediate with
  | [] => none
  | c :: after => if c.isControlFinal then some after else none

def afterControl? : Text → Option Text
  | e :: bracket :: rest => if e.isEscape ∧ bracket = '[' then afterControlRest? rest else none
  | _ => none

theorem afterControlRest?_length_le {t after : Text} (found : afterControlRest? t = some after) :
    after.length ≤ t.length := by
  unfold afterControlRest? at found
  split at found
  · cases found
  · next c rest shape =>
    have parameters := (List.dropWhile_suffix CodePoint.isControlParameter (l := t)).length_le
    have intermediates := (List.dropWhile_suffix CodePoint.isControlIntermediate
      (l := t.dropWhile CodePoint.isControlParameter)).length_le
    rw [shape, List.length_cons] at intermediates
    split at found
    · cases found; omega
    · cases found

theorem afterControl?_shorter {t after : Text} (found : afterControl? t = some after) :
    after.length < t.length := by
  unfold afterControl? at found
  split at found
  · next e bracket rest =>
    split at found
    · have bound := afterControlRest?_length_le found
      simp only [List.length_cons]
      omega
    · cases found
  · cases found

/-- Add the text without its control sequences to what was kept before, newest first. -/
def keepPrinted (kept t : Text) : Text :=
  match t with
  | [] => kept
  | c :: rest =>
    match _found : afterControl? (c :: rest) with
    | some after => keepPrinted kept after
    | none => keepPrinted (c :: kept) rest
termination_by t.length
decreasing_by
  · exact afterControl?_shorter _found
  · exact Nat.lt_succ_self _

def withoutControlSequences (t : Text) : Text := (keepPrinted [] t).reverse

end Text

end JsonShape
