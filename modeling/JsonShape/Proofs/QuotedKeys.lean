import JsonShape.Naming.Key
import JsonShape.Proofs.StringLiterals
import Mathlib.Data.List.Chain

/-! Reading quoted keys back.

The quoted form of a key is a string literal of the grammar, so scanning it gives the key back, with one
exception that the grammar makes: a high surrogate that stands right before a low one is written as their
pair would be. Keys without such neighbours are told apart by how they are written, and so is where they
end.
-/

set_option autoImplicit false

namespace JsonShape

theorem Json.SpellsPieces.append {pieces others : List Json.Piece} {t u : Text}
    (first : Json.SpellsPieces pieces t) (second : Json.SpellsPieces others u) :
    Json.SpellsPieces (pieces ++ others) (t ++ u) := by
  induction first with
  | none => exact second
  | more here _ ih =>
    rw [List.cons_append, List.append_assoc]
    exact .more here ih

open Json (Piece SpellsHex SpellsPiece SpellsPieces joinPieces startsLow separated)

/-! ## Words -/

namespace Text

def IsWord (t : Text) : Prop := ∀ c ∈ t, c.isIdentifierPart

def EndsWord (t : Text) : Prop := ∀ c ∈ t.head?, c.isIdentifierPart = false

theorem endsWord_cons {c : CodePoint} (noPart : c.isIdentifierPart = false) (t : Text) :
    EndsWord (c :: t) := by
  rintro d ⟨⟩
  exact noPart

theorem isWord_cons {c : CodePoint} {t : Text} : IsWord (c :: t) ↔ c.isIdentifierPart ∧ t.IsWord :=
  List.forall_mem_cons

theorem isWord_append {s t : Text} : IsWord (s ++ t) ↔ s.IsWord ∧ t.IsWord :=
  List.forall_mem_append

theorem isIdentifier_cons {c : CodePoint} {t : Text} :
    isIdentifier (c :: t) ↔ c.isIdentifierStart ∧ t.IsWord := by
  rw [isIdentifier, Bool.and_eq_true, List.all_eq_true]
  rfl

/-- A stretch of code points of one kind is told by what follows it being of another. -/
theorem stretch_append_inj {kind : CodePoint → Bool} {s t r u : Text} (first : ∀ c ∈ s, kind c)
    (second : ∀ c ∈ t, kind c) (ends : ∀ c ∈ r.head?, kind c = false)
    (ends' : ∀ c ∈ u.head?, kind c = false) (same : s ++ r = t ++ u) : s = t ∧ r = u := by
  have stops {rest : Text} (other : ∀ c ∈ rest.head?, kind c = false) : rest.takeWhile kind = [] := by
    cases rest with
    | nil => rfl
    | cons c rest => rw [List.takeWhile_cons, other c rfl, if_neg Bool.false_ne_true]
  have stretches := congrArg (List.takeWhile kind) same
  rw [List.takeWhile_append_of_pos first, List.takeWhile_append_of_pos second, stops ends, stops ends',
    List.append_nil, List.append_nil] at stretches
  subst stretches
  exact ⟨rfl, List.append_cancel_left same⟩

theorem word_append_inj {s t r u : Text} (first : s.IsWord) (second : t.IsWord) (ends : r.EndsWord)
    (ends' : u.EndsWord) (same : s ++ r = t ++ u) : s = t ∧ r = u :=
  stretch_append_inj first second ends ends' same

theorem isWord_of_isIdentifier {t : Text} (named : t.isIdentifier) : t.IsWord := by
  cases t with
  | nil => cases named
  | cons c rest =>
    rw [isIdentifier_cons] at named
    refine isWord_cons.2 ⟨?_, named.2⟩
    rw [CodePoint.isIdentifierPart, named.1, Bool.true_or]

theorem identifier_append_ne {word : Text} {c : CodePoint} (named : word.isIdentifier)
    (noPart : c.isIdentifierPart = false) (t u : Text) : word ++ t ≠ c :: u := by
  cases word with
  | nil => cases named
  | cons d rest =>
    intro same
    have part := isWord_of_isIdentifier named d List.mem_cons_self
    rw [(List.cons.inj same).1, noPart] at part
    cases part

/-! ## Surrogates next to each other -/

/-- The text with each high surrogate joined to a low one right after it. -/
def paired : Text → Text
  | [] => []
  | [c] => [c]
  | c :: d :: rest =>
    if c.isHighSurrogate && d.isLowSurrogate then CodePoint.joinSurrogates c d :: paired rest
    else c :: paired (d :: rest)

def IsWhole (t : Text) : Prop := t.IsChain fun c d => (c.isHighSurrogate && d.isLowSurrogate) = false

theorem paired_of_isWhole {t : Text} (whole : t.IsWhole) : t.paired = t := by
  fun_induction paired t with
  | case1 => rfl
  | case2 => rfl
  | case3 c d rest pair =>
    rw [IsWhole, List.isChain_cons_cons] at whole
    cases pair.symm.trans whole.1
  | case4 c d rest _ ih =>
    rw [IsWhole, List.isChain_cons_cons] at whole
    rw [ih whole.2]

/-! ## Quoted text as a string literal -/

def highHalf (c : CodePoint) : CodePoint := CodePoint.ofNat (0xD800 + (c.val - 0x10000) / 0x400)

def lowHalf (c : CodePoint) : CodePoint := CodePoint.ofNat (0xDC00 + (c.val - 0x10000) % 0x400)

theorem val_highHalf (c : CodePoint) : (highHalf c).val = 0xD800 + (c.val - 0x10000) / 0x400 := by
  have valid := c.valid
  rw [highHalf, CodePoint.ofNat, dif_pos (by omega)]

theorem val_lowHalf (c : CodePoint) : (lowHalf c).val = 0xDC00 + (c.val - 0x10000) % 0x400 := by
  rw [lowHalf, CodePoint.ofNat, dif_pos (by omega)]

theorem isHighSurrogate_highHalf (c : CodePoint) : (highHalf c).isHighSurrogate := by
  have valid := c.valid
  rw [CodePoint.isHighSurrogate, val_highHalf, Bool.and_eq_true, decide_eq_true_eq, decide_eq_true_eq]
  omega

theorem isLowSurrogate_lowHalf (c : CodePoint) : (lowHalf c).isLowSurrogate := by
  rw [CodePoint.isLowSurrogate, val_lowHalf, Bool.and_eq_true, decide_eq_true_eq, decide_eq_true_eq]
  omega

theorem joinSurrogates_halves {c : CodePoint} (beyond : 0x10000 ≤ c.val) :
    CodePoint.joinSurrogates (highHalf c) (lowHalf c) = c := by
  have valid := c.valid
  apply CodePoint.ext_val
  rw [CodePoint.joinSurrogates, val_highHalf, val_lowHalf, CodePoint.ofNat, dif_pos (by omega)]
  dsimp only
  omega

def pieces (c : CodePoint) : List Piece :=
  if (shortEscape? c).isSome then [.plain c]
  else if 0x20 ≤ c.val && c.val ≤ 0x7E then [.plain c]
  else if c.val < 0x10000 then [.numbered c]
  else [.numbered (highHalf c), .numbered (lowHalf c)]

theorem spellsHex_hexDigit (n : Nat) : SpellsHex (hexDigit n) (n % 16) := by
  rw [hexDigit]
  split
  · next small => exact .figure small (by rw [CodePoint.ofNat, dif_pos (by omega)])
  · next large =>
    have letter : n % 16 = 10 + (n % 16 - 10) := by omega
    have spelled : SpellsHex (CodePoint.ofNat (0x61 + (n % 16 - 10))) (10 + (n % 16 - 10)) :=
      .lower (by omega) (by rw [CodePoint.ofNat, dif_pos (by omega)])
    rwa [← letter] at spelled

theorem spells_unicodeEscape {n : Nat} (small : n < 0x10000) :
    SpellsPiece (.numbered (CodePoint.ofNat n)) (unicodeEscape n) := by
  have digits : (((n / 0x1000 % 16) * 16 + n / 0x100 % 16) * 16 + n / 0x10 % 16) * 16 + n % 16 = n := by
    omega
  have spelled := SpellsPiece.numbered (spellsHex_hexDigit (n / 0x1000)) (spellsHex_hexDigit (n / 0x100))
    (spellsHex_hexDigit (n / 0x10)) (spellsHex_hexDigit n)
  rw [digits] at spelled
  exact spelled

theorem ofNat_val (c : CodePoint) : CodePoint.ofNat c.val = c := by
  rw [CodePoint.ofNat, dif_pos c.valid]

theorem mem_shortEscapes {c letter : CodePoint} (short : shortEscape? c = some letter) :
    (letter, c) ∈ Json.shortEscapes := by
  unfold shortEscape? at short
  repeat' split at short
  all_goals cases short
  any_goals subst c
  any_goals decide
  · next formFeed =>
    rw [show c = CodePoint.ofNat 0x0C from CodePoint.ext_val formFeed]
    decide
  · next backspace =>
    rw [show c = CodePoint.ofNat 0x08 from CodePoint.ext_val backspace]
    decide

theorem spells_escaped (c : CodePoint) : SpellsPieces (pieces c) (escaped c) := by
  have alone {p : Piece} {t : Text} (spelled : SpellsPiece p t) : SpellsPieces [p] t := by
    have listed := SpellsPieces.more spelled .none
    rwa [List.append_nil] at listed
  rw [pieces, escaped]
  cases short : shortEscape? c with
  | some letter => exact alone (.short (mem_shortEscapes short))
  | none =>
    have noQuote : c ≠ '"' := by
      rintro rfl
      cases short
    have noBackslash : c ≠ '\\' := by
      rintro rfl
      cases short
    rw [Option.isSome_none, if_neg Bool.false_ne_true]
    dsimp only
    split
    · next printing =>
      rw [Bool.and_eq_true, decide_eq_true_eq] at printing
      exact alone (.itself printing.1 noQuote noBackslash)
    · split
      · next small =>
        have spelled := spells_unicodeEscape small
        rw [ofNat_val] at spelled
        exact alone spelled
      · have valid := c.valid
        exact .more (spells_unicodeEscape (by omega)) (alone (spells_unicodeEscape (by omega)))

theorem spells_flatMap (t : Text) : SpellsPieces (t.flatMap pieces) (t.flatMap escaped) := by
  induction t with
  | nil => exact .none
  | cons c rest ih => exact (spells_escaped c).append ih

/-! ## What the literal stands for -/

theorem not_surrogate_of_short {c letter : CodePoint} (short : shortEscape? c = some letter) :
    c.isSurrogate = false := by
  have ordinary : ∀ e ∈ Json.shortEscapes, e.2.isSurrogate = false := by decide
  exact ordinary _ (mem_shortEscapes short)

theorem pieces_of_isSurrogate {c : CodePoint} (surrogate : c.isSurrogate) : pieces c = [.numbered c] := by
  cases short : shortEscape? c with
  | some letter => cases (not_surrogate_of_short short).symm.trans surrogate
  | none =>
    simp only [CodePoint.isSurrogate, CodePoint.isHighSurrogate, CodePoint.isLowSurrogate, Bool.or_eq_true,
      Bool.and_eq_true, decide_eq_true_eq] at surrogate
    rw [pieces, short, Option.isSome_none, if_neg Bool.false_ne_true,
      if_neg (by rw [Bool.and_eq_true, decide_eq_true_eq, decide_eq_true_eq]; omega), if_pos (by omega)]

/-- The pieces of a code point stand for it where it does not make a pair with what follows. -/
theorem joinPieces_pieces {c : CodePoint} {rest : List Piece}
    (alone : c.isHighSurrogate → startsLow rest = false) :
    joinPieces (pieces c ++ rest) = c :: joinPieces rest := by
  rw [pieces]
  split
  · rfl
  · split
    · rfl
    · split
      · exact Json.joinPieces_alone alone
      · next beyond =>
        rw [List.cons_append, List.singleton_append,
          Json.joinPieces_pair (isHighSurrogate_highHalf c) (isLowSurrogate_lowHalf c),
          joinSurrogates_halves (Nat.le_of_not_lt beyond)]

theorem isLowSurrogate_of_isHighSurrogate {c : CodePoint} (high : c.isHighSurrogate) :
    c.isLowSurrogate = false := by
  rw [CodePoint.isHighSurrogate, Bool.and_eq_true, decide_eq_true_eq, decide_eq_true_eq] at high
  rw [CodePoint.isLowSurrogate, Bool.and_eq_false_iff, decide_eq_false_iff_not]
  omega

theorem startsLow_pieces {c : CodePoint} (notLow : c.isLowSurrogate = false) (rest : List Piece) :
    startsLow (pieces c ++ rest) = false := by
  rw [pieces]
  split
  · rfl
  · split
    · rfl
    · split
      · exact notLow
      · exact isLowSurrogate_of_isHighSurrogate (isHighSurrogate_highHalf c)

theorem joinPieces_flatMap (t : Text) : joinPieces (t.flatMap pieces) = t.paired := by
  fun_induction paired t with
  | case1 => rfl
  | case2 c =>
    rw [List.flatMap_singleton, ← List.append_nil (pieces c)]
    exact joinPieces_pieces fun _ => rfl
  | case3 c d rest pair ih =>
    rw [Bool.and_eq_true] at pair
    rw [List.flatMap_cons, List.flatMap_cons,
      pieces_of_isSurrogate (by rw [CodePoint.isSurrogate, pair.1, Bool.true_or]),
      pieces_of_isSurrogate (by rw [CodePoint.isSurrogate, pair.2, Bool.or_true]), ← ih]
    exact Json.joinPieces_pair pair.1 pair.2
  | case4 c d rest apart ih =>
    rw [List.flatMap_cons, ← ih]
    refine joinPieces_pieces fun high => ?_
    rw [high, Bool.true_and, Bool.not_eq_true] at apart
    rw [List.flatMap_cons]
    exact startsLow_pieces apart _

/-- Quoted keys that look alike are alike up to pairs of surrogates, and end at the same place. -/
theorem quoted_append_inj {k k' r r' : Text} (same : k.quoted ++ r = k'.quoted ++ r') :
    k.paired = k'.paired ∧ r = r' := by
  have scanned (key later : Text) :
      Json.scanString [] [] (separated (key.flatMap escaped) '"' later) = .ok (key.paired, later) := by
    rw [Json.scanString_pieces (spells_flatMap key), joinPieces_flatMap]
    rfl
  have inner : separated (k.flatMap escaped) '"' r = separated (k'.flatMap escaped) '"' r' := by
    simp only [quoted, List.cons_append, List.append_assoc, List.cons.injEq, true_and] at same
    exact same
  have both := (scanned k r).symm.trans ((congrArg _ inner).trans (scanned k' r'))
  exact Prod.mk.inj (Except.ok.inj both)

theorem propertyKey_append_inj {k k' r r' : Text} (ends : r.EndsWord) (ends' : r'.EndsWord)
    (same : k.propertyKey ++ r = k'.propertyKey ++ r') : k.paired = k'.paired ∧ r = r' := by
  have unlike {key key' s s' : Text} (named : key.isIdentifier) : key ++ s ≠ key'.quoted ++ s' :=
    identifier_append_ne named (by decide) s _
  rw [propertyKey, propertyKey] at same
  -- a key is quoted or not, and no identifier starts with a quote
  split at same <;> split at same
  · next named named' =>
    obtain ⟨rfl, later⟩ := word_append_inj (isWord_of_isIdentifier named) (isWord_of_isIdentifier named')
      ends ends' same
    exact ⟨rfl, later⟩
  · next named _ => exact absurd same (unlike named)
  · next _ named => exact absurd same.symm (unlike named)
  · exact quoted_append_inj same

end Text

end JsonShape
