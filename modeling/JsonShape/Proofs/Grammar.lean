import JsonShape.Json.Value

/-! The grammar of JSON.

What a text spells, without any reader. Each rule puts a text together from shorter ones, and the value
belongs to the text as a whole: an object keeps each key at its first place with its last value, and the
escapes of a high and a low surrogate next to each other stand for one code point.
-/

set_option autoImplicit false

namespace JsonShape.Json

def spacePoints : Text := [' ', '\t', '\n', '\r']

def Spaces (t : Text) : Prop := ∀ c ∈ t, c ∈ spacePoints

def enclosed (opening closing : CodePoint) (inner : Text) : Text := opening :: (inner ++ [closing])

def separated (left : Text) (mark : CodePoint) (right : Text) : Text := left ++ mark :: right

theorem separated_ne_nil (left : Text) (mark : CodePoint) (right : Text) :
    separated left mark right ≠ [] :=
  List.append_ne_nil_of_right_ne_nil left (List.cons_ne_nil mark right)

/-! ## Numbers -/

def figure (d : Digit) : CodePoint := ⟨0x30 + d.val, by omega⟩

def figures (digits : List Digit) : Text := digits.map figure

inductive IsWhole : List Digit → Prop where
  | zero : IsWhole [0]
  | digits {d : Digit} {rest : List Digit} (nonzero : d ≠ 0) : IsWhole (d :: rest)

inductive SpellsFraction : List Digit → Text → Prop where
  | absent : SpellsFraction [] []
  | digits {digits : List Digit} (some : digits ≠ []) : SpellsFraction digits ('.' :: figures digits)

inductive SpellsSign : Bool → Text → Prop where
  | absent : SpellsSign false []
  | plus : SpellsSign false ['+']
  | minus : SpellsSign true ['-']

inductive SpellsExponent : Bool → List Digit → Text → Prop where
  | absent : SpellsExponent false [] []
  | digits {letter : CodePoint} {negative : Bool} {sign : Text} {digits : List Digit}
      (isLetter : letter = 'e' ∨ letter = 'E') (signed : SpellsSign negative sign)
      (some : digits ≠ []) : SpellsExponent negative digits (letter :: (sign ++ figures digits))

def minus (negative : Bool) : Text := if negative then ['-'] else []

inductive SpellsNumeral : Numeral → Text → Prop where
  | parts {negative exponentNegative : Bool} {whole fraction exponent : List Digit}
      {afterPoint afterLetter : Text} (isWhole : IsWhole whole)
      (isFraction : SpellsFraction fraction afterPoint)
      (isExponent : SpellsExponent exponentNegative exponent afterLetter) :
      SpellsNumeral ⟨negative, whole, fraction, exponentNegative, exponent⟩
        (minus negative ++ (figures whole ++ (afterPoint ++ afterLetter)))

/-- The number of a numeral: without fraction and exponent it is an integer. -/
def Numeral.number (n : Numeral) : Number := if n.isInteger then .integer n.toInt else .real n

/-! ## Strings -/

inductive SpellsHex : CodePoint → Nat → Prop where
  | figure {c : CodePoint} {n : Nat} (small : n < 10) (at0 : c.val = 0x30 + n) : SpellsHex c n
  | lower {c : CodePoint} {n : Nat} (small : n < 6) (atA : c.val = 0x61 + n) : SpellsHex c (10 + n)
  | upper {c : CodePoint} {n : Nat} (small : n < 6) (atA : c.val = 0x41 + n) : SpellsHex c (10 + n)

def shortEscapes : List (CodePoint × CodePoint) := [
  ('"', '"'), ('\\', '\\'), ('/', '/'), ('b', CodePoint.ofNat 0x08), ('f', CodePoint.ofNat 0x0C),
  ('n', '\n'), ('r', '\r'), ('t', '\t')]

/-- A piece of a string. Only what is escaped by its number can be half of a pair. -/
inductive Piece where
  | plain (c : CodePoint)
  | numbered (c : CodePoint)

inductive SpellsPiece : Piece → Text → Prop where
  | itself {c : CodePoint} (printing : 0x20 ≤ c.val) (noQuote : c ≠ '"') (noBackslash : c ≠ '\\') :
      SpellsPiece (.plain c) [c]
  | short {letter c : CodePoint} (listed : (letter, c) ∈ shortEscapes) :
      SpellsPiece (.plain c) ['\\', letter]
  | numbered {a b c d : CodePoint} {w x y z : Nat} (first : SpellsHex a w) (second : SpellsHex b x)
      (third : SpellsHex c y) (fourth : SpellsHex d z) :
      SpellsPiece (.numbered (CodePoint.ofNat (((w * 16 + x) * 16 + y) * 16 + z)))
        ['\\', 'u', a, b, c, d]

inductive SpellsPieces : List Piece → Text → Prop where
  | none : SpellsPieces [] []
  | more {p : Piece} {rest : List Piece} {here later : Text} (first : SpellsPiece p here)
      (others : SpellsPieces rest later) : SpellsPieces (p :: rest) (here ++ later)

/-- The string of some pieces, in which a high and a low surrogate next to each other are joined. -/
def joinPieces : List Piece → Text
  | [] => []
  | .plain c :: rest => c :: joinPieces rest
  | .numbered c :: .numbered d :: rest =>
    if c.isHighSurrogate && d.isLowSurrogate then CodePoint.joinSurrogates c d :: joinPieces rest
    else c :: joinPieces (.numbered d :: rest)
  | .numbered c :: rest => c :: joinPieces rest

inductive SpellsString : Text → Text → Prop where
  | quoted {pieces : List Piece} {inner : Text} (spelled : SpellsPieces pieces inner) :
      SpellsString (joinPieces pieces) (enclosed '"' '"' inner)

/-! ## Values -/

/-- What a part of a text can spell. Elements and members are lists that are not empty. -/
inductive Phrase where
  | value (v : Value)
  | element (v : Value)
  | elements (vs : List Value)
  | member (m : Member)
  | members (ms : List Member)

inductive Spells : Phrase → Text → Prop where
  | null : Spells (.value .null) "null"
  | true : Spells (.value (.bool true)) "true"
  | false : Spells (.value (.bool false)) "false"
  | number {n : Numeral} {t : Text} (spelled : SpellsNumeral n t) :
      Spells (.value (.number n.number)) t
  | string {s t : Text} (spelled : SpellsString s t) : Spells (.value (.string s)) t
  | emptyArray {inner : Text} (blank : Spaces inner) :
      Spells (.value (.array [])) (enclosed '[' ']' inner)
  | array {vs : List Value} {inner : Text} (spelled : Spells (.elements vs) inner) :
      Spells (.value (.array vs)) (enclosed '[' ']' inner)
  | emptyObject {inner : Text} (blank : Spaces inner) :
      Spells (.value (.object [])) (enclosed '\x7b' '\x7d' inner)
  | object {ms : List Member} {inner : Text} (spelled : Spells (.members ms) inner) :
      Spells (.value (.object (ofPairs ms))) (enclosed '\x7b' '\x7d' inner)
  | element {v : Value} {before t after : Text} (blank : Spaces before)
      (spelled : Spells (.value v) t) (blankAfter : Spaces after) :
      Spells (.element v) (before ++ (t ++ after))
  | lastElement {v : Value} {t : Text} (spelled : Spells (.element v) t) : Spells (.elements [v]) t
  | moreElements {v : Value} {vs : List Value} {t later : Text} (spelled : Spells (.element v) t)
      (others : Spells (.elements vs) later) : Spells (.elements (v :: vs)) (separated t ',' later)
  | member {name : Text} {v : Value} {before s between t : Text} (blank : Spaces before)
      (named : SpellsString name s) (blankBetween : Spaces between)
      (spelled : Spells (.element v) t) :
      Spells (.member (name, v)) (before ++ (s ++ separated between ':' t))
  | lastMember {m : Member} {t : Text} (spelled : Spells (.member m) t) : Spells (.members [m]) t
  | moreMembers {m : Member} {ms : List Member} {t later : Text} (spelled : Spells (.member m) t)
      (others : Spells (.members ms) later) : Spells (.members (m :: ms)) (separated t ',' later)

def JsonText (t : Text) (v : Value) : Prop := Spells (.element v) t

end JsonShape.Json
