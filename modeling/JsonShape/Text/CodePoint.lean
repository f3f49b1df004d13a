import Std.Data.TreeSet

/-! Text as a sequence of code points.

A JSON string may name an unpaired surrogate, which no character type admits, so a text is a list of
code points instead of a string. Characters and string literals embed into it, and texts are ordered
by their code points from the left.
-/

set_option autoImplicit false

namespace JsonShape

/-- A number below `0x110000`. Surrogates are code points like any other. -/
structure CodePoint where
  val : Nat
  valid : val < 0x110000
  deriving DecidableEq

namespace CodePoint

theorem ext_val {a b : CodePoint} (same : a.val = b.val) : a = b := by
  cases a; cases b; cases same; rfl

theorem ofChar_valid (c : Char) : c.toNat < 0x110000 := by
  have valid := c.valid
  simp only [UInt32.isValidChar, Nat.isValidChar, Char.toNat_val] at valid
  omega

def ofChar (c : Char) : CodePoint := ⟨c.toNat, ofChar_valid c⟩

instance : Coe Char CodePoint := ⟨ofChar⟩

@[simp] theorem val_ofChar (c : Char) : (ofChar c).val = c.toNat := rfl

@[simp] theorem ofChar_inj {a b : Char} : ofChar a = ofChar b ↔ a = b := by
  constructor
  · intro same
    have values := congrArg CodePoint.val same
    simp only [val_ofChar] at values
    exact Char.ext (UInt32.toNat_inj.1 values)
  · rintro rfl; rfl

/-- The code point with a given number; numbers out of range give the replacement character. -/
def ofNat (n : Nat) : CodePoint := if valid : n < 0x110000 then ⟨n, valid⟩ else ⟨0xFFFD, by decide⟩

instance : Inhabited CodePoint := ⟨ofChar ' '⟩

instance : Ord CodePoint := ⟨fun a b => compare a.val b.val⟩

theorem compare_eq (a b : CodePoint) : compare a b = compare a.val b.val := rfl

instance : Std.LawfulEqOrd CodePoint where
  compare_self := by intro a; rw [compare_eq]; exact Std.ReflCmp.compare_self
  eq_of_compare := by
    intro a b same
    rw [compare_eq] at same
    exact ext_val (Std.LawfulEqCmp.eq_of_compare same)

instance : Std.TransOrd CodePoint where
  eq_swap := by intro a b; simp only [compare_eq]; exact Std.OrientedCmp.eq_swap
  isLE_trans := by intro a b c; simp only [compare_eq]; exact Std.TransCmp.isLE_trans

def isHighSurrogate (c : CodePoint) : Bool := 0xD800 ≤ c.val && c.val ≤ 0xDBFF

def isLowSurrogate (c : CodePoint) : Bool := 0xDC00 ≤ c.val && c.val ≤ 0xDFFF

def isSurrogate (c : CodePoint) : Bool := c.isHighSurrogate || c.isLowSurrogate

def joinSurrogates (high low : CodePoint) : CodePoint :=
  ofNat (0x10000 + (high.val - 0xD800) * 0x400 + (low.val - 0xDC00))

/-- Unpaired surrogates have no character; they become the replacement character. -/
def toChar (c : CodePoint) : Char := if c.isSurrogate then '\uFFFD' else Char.ofNat c.val

def utf8Size (c : CodePoint) : Nat :=
  if c.val < 0x80 then 1 else if c.val < 0x800 then 2 else if c.val < 0x10000 then 3 else 4

def within (ranges : List (Nat × Nat)) (c : CodePoint) : Bool :=
  ranges.any fun (first, last) => first ≤ c.val && c.val ≤ last

end CodePoint

abbrev Text := List CodePoint

namespace Text

def ofString (s : String) : Text := s.toList.map CodePoint.ofChar

instance : Coe String Text := ⟨ofString⟩

def toString (t : Text) : String := String.ofList (t.map CodePoint.toChar)

def isEncodable (t : Text) : Bool := t.all fun c => !c.isSurrogate

def utf8Size (t : Text) : Nat := t.foldl (fun size c => size + c.utf8Size) 0

def ofNat (n : Nat) : Text := ofString (Nat.repr n)

def ofInt : Int → Text
  | .ofNat n => ofNat n
  | .negSucc n => ofString "-" ++ ofNat (n + 1)

def joined (separator : Text) (parts : List Text) : Text := separator.intercalate parts

def times (n : Nat) (t : Text) : Text := (List.replicate n t).flatten

end Text

end JsonShape
