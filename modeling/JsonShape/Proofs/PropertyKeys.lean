import JsonShape.Proofs.QuotedKeys
import JsonShape.Proofs.SampleTexts

/-! Property keys as texts of their own.

A key is written in printable ASCII, an identifier as it is and any other key as a string literal that ends
where the text ends. Reading the literal gives the key back, with two surrogates that would make a pair
joined to one code point. Keys are written alike exactly if they are the same up to such pairs.
-/

set_option autoImplicit false

namespace JsonShape

namespace CodePoint

def isPrintableAscii (c : CodePoint) : Bool := 0x20 ≤ c.val && c.val ≤ 0x7E

variable {c : CodePoint}

theorem isPrintableAscii_iff : c.isPrintableAscii ↔ 0x20 ≤ c.val ∧ c.val ≤ 0x7E := by
  rw [isPrintableAscii, Bool.and_eq_true, decide_eq_true_eq, decide_eq_true_eq]

theorem isPrintableAscii_of_part (part : c.isIdentifierPart) : c.isPrintableAscii := by
  simp only [isIdentifierPart, isIdentifierStart, isAsciiLetter, isAsciiLower, isAsciiUpper, isAsciiDigit,
    Bool.or_eq_true, Bool.and_eq_true, decide_eq_true_eq] at part
  rw [isPrintableAscii_iff]
  rcases part with ((((low | high) | rfl) | rfl) | digit)
  all_goals first | omega | decide

theorem forall_part {p : CodePoint → Prop}
    (looked : ∀ n < 0x80, (ofNat n).isIdentifierPart → p (ofNat n)) (part : c.isIdentifierPart) : p c := by
  have small := (isPrintableAscii_iff.1 (isPrintableAscii_of_part part)).2
  rw [← Text.ofNat_val c] at part ⊢
  exact looked c.val (by omega) part

end CodePoint

open Json (SpellsHex SpellsPieces SpellsString JsonText Lexeme joinPieces)

namespace Text

def IsPrintable (t : Text) : Prop := ∀ c ∈ t, c.isPrintableAscii

/-! ## What a key is written with -/

theorem isPrintableAscii_of_spellsHex {c : CodePoint} {n : Nat} (spelled : SpellsHex c n) :
    c.isPrintableAscii := by
  rw [CodePoint.isPrintableAscii_iff]
  cases spelled <;> omega

theorem isPrintable_unicodeEscape (n : Nat) : (unicodeEscape n).IsPrintable := by
  have backslash : (CodePoint.ofChar '\\').isPrintableAscii := by decide
  have letter : (CodePoint.ofChar 'u').isPrintableAscii := by decide
  have digit (n : Nat) : (hexDigit n).isPrintableAscii :=
    isPrintableAscii_of_spellsHex (spellsHex_hexDigit n)
  simp only [IsPrintable, unicodeEscape, List.forall_mem_cons, backslash, letter, digit, true_and]
  exact List.forall_mem_nil _

theorem isPrintable_escaped (c : CodePoint) : (escaped c).IsPrintable := by
  have letters : ∀ e ∈ Json.shortEscapes, e.1.isPrintableAscii := by decide
  have backslash : (CodePoint.ofChar '\\').isPrintableAscii := by decide
  rw [escaped]
  split
  · next letter short =>
    exact List.forall_mem_cons.2
      ⟨backslash, List.forall_mem_singleton.2 (letters _ (mem_shortEscapes short))⟩
  · split
    · next printing => exact List.forall_mem_singleton.2 printing
    · split
      · exact isPrintable_unicodeEscape _
      · exact List.forall_mem_append.2 ⟨isPrintable_unicodeEscape _, isPrintable_unicodeEscape _⟩

theorem isPrintable_quoted (key : Text) : key.quoted.IsPrintable := by
  have mark : (CodePoint.ofChar '"').isPrintableAscii := by decide
  have inner : IsPrintable (key.flatMap escaped) := by
    intro c member
    obtain ⟨d, _, among⟩ := List.mem_flatMap.1 member
    exact isPrintable_escaped d c among
  exact List.forall_mem_cons.2 ⟨mark, List.forall_mem_append.2 ⟨inner, List.forall_mem_singleton.2 mark⟩⟩

theorem isSurrogate_of_isPrintable {t : Text} (printable : t.IsPrintable) : ∀ c ∈ t, c.isSurrogate = false := by
  intro c member
  have small := CodePoint.isPrintableAscii_iff.1 (printable c member)
  simp only [CodePoint.isSurrogate, CodePoint.isHighSurrogate, CodePoint.isLowSurrogate,
    Bool.or_eq_false_iff, Bool.and_eq_false_iff, decide_eq_false_iff_not]
  omega

theorem isEncodable_quoted (key : Text) : key.quoted.isEncodable := by
  simpa [isEncodable] using isSurrogate_of_isPrintable (isPrintable_quoted key)

theorem isPrintable_propertyKey (key : Text) : key.propertyKey.IsPrintable := by
  rw [propertyKey]
  split
  · next named => exact fun c member =>
      CodePoint.isPrintableAscii_of_part (isWord_of_isIdentifier named c member)
  · exact isPrintable_quoted key

theorem propertyKey_ne_nil (key : Text) : key.propertyKey ≠ [] := by
  rw [propertyKey]
  split
  · next named =>
    rintro rfl
    cases named
  · exact List.cons_ne_nil _ _

theorem head_of_isIdentifier {key : Text} (named : key.isIdentifier) :
    key.head? ≠ some (CodePoint.ofChar '"') := by
  intro isMark
  have part := isWord_of_isIdentifier named _ (List.mem_of_mem_head? isMark)
  revert part
  decide

/-- A key is written as itself or in quotation marks, which the first code point tells. -/
theorem propertyKey_cases (key : Text) :
    (key.isIdentifier ∧ key.propertyKey = key ∧ key.propertyKey.head? ≠ some (CodePoint.ofChar '"')) ∨
      (key.propertyKey = key.quoted ∧ key.propertyKey.head? = some (CodePoint.ofChar '"')) := by
  rw [propertyKey]
  split
  · next named => exact .inl ⟨named, rfl, head_of_isIdentifier named⟩
  · exact .inr ⟨rfl, rfl⟩

/-! ## Reading the literal -/

theorem spellsString_quoted (key : Text) : SpellsString key.paired key.quoted := by
  rw [← joinPieces_flatMap]
  exact .quoted (spells_flatMap key)

/-- The literal ends where the text ends, whatever comes after it. -/
theorem scan_quoted (key later : Text) :
    Json.scan '"' ((key.quoted ++ later).tail) = (.string key.paired, later) := by
  obtain ⟨c, rest, parts, _, scanned⟩ := @Json.scan_lexeme _ _ later
    (Lexeme.string (spellsString_quoted key)) nofun
  rw [parts]
  obtain ⟨rfl, _⟩ := List.cons.inj parts
  exact scanned

theorem jsonText_quoted (key : Text) : JsonText key.quoted (.string key.paired) := by
  have spelled := @Json.Spells.element _ [] _ [] (List.forall_mem_nil _)
    (.string (spellsString_quoted key)) (List.forall_mem_nil _)
  rwa [List.nil_append, List.append_nil] at spelled

theorem tokens_quoted (key : Text) : Json.tokens key.quoted = [.string key.paired] := by
  have scanned := scan_quoted key []
  rw [List.append_nil] at scanned
  have shape : Json.skipSpace key.quoted = CodePoint.ofChar '"' :: key.quoted.tail :=
    Json.skipSpace_cons (by decide)
  rw [Json.tokens_cons shape, scanned, Json.tokens]
  rfl

theorem withinLimits_quoted (key : Text) (depth : Nat) : Json.WithinLimits depth key.quoted := by
  constructor
  · rw [tokens_quoted]
    exact Nat.zero_le depth
  · rw [tokens_quoted]
    intro n member
    cases List.mem_singleton.1 member

theorem read_quoted (key : Text) :
    Json.read key.quoted =
      .ok ⟨some (.string key.paired), Json.sizeWarning key.quoted ++ [⟨.parsed, []⟩]⟩ :=
  Json.read_jsonText (withinLimits_quoted key _) (isEncodable_quoted key) (jsonText_quoted key)

/-! ## Keys written alike -/

theorem escaped_of_isSurrogate {c : CodePoint} (surrogate : c.isSurrogate) :
    escaped c = unicodeEscape c.val := by
  rw [escaped]
  split
  · next short => cases (not_surrogate_of_short short).symm.trans surrogate
  · simp only [CodePoint.isSurrogate, CodePoint.isHighSurrogate, CodePoint.isLowSurrogate, Bool.or_eq_true,
      Bool.and_eq_true, decide_eq_true_eq] at surrogate
    rw [if_neg (by rw [Bool.and_eq_true, decide_eq_true_eq, decide_eq_true_eq]; omega), if_pos (by omega)]

theorem escaped_of_beyond {c : CodePoint} (beyond : 0x10000 ≤ c.val) :
    escaped c = unicodeEscape (highHalf c).val ++ unicodeEscape (lowHalf c).val := by
  have basic : ∀ e ∈ Json.shortEscapes, e.2.val < 0x10000 := by decide
  rw [escaped]
  split
  · next short => exact absurd (basic _ (mem_shortEscapes short)) (Nat.not_lt.2 beyond)
  · rw [if_neg (by rw [Bool.and_eq_true, decide_eq_true_eq, decide_eq_true_eq]; omega),
      if_neg (by omega), val_highHalf, val_lowHalf]

theorem escaped_joinSurrogates {c d : CodePoint} (high : c.isHighSurrogate) (low : d.isLowSurrogate) :
    escaped (CodePoint.joinSurrogates c d) = escaped c ++ escaped d := by
  have joined := Json.val_joinSurrogates high low
  have beyond : 0x10000 ≤ (CodePoint.joinSurrogates c d).val := by omega
  have isFirst : c.isSurrogate := by rw [CodePoint.isSurrogate, high, Bool.true_or]
  have isSecond : d.isSurrogate := by rw [CodePoint.isSurrogate, low, Bool.or_true]
  rw [escaped_of_beyond beyond, escaped_of_isSurrogate isFirst, escaped_of_isSurrogate isSecond,
    val_highHalf, val_lowHalf, joined]
  rw [CodePoint.isHighSurrogate, Bool.and_eq_true, decide_eq_true_eq, decide_eq_true_eq] at high
  rw [CodePoint.isLowSurrogate, Bool.and_eq_true, decide_eq_true_eq, decide_eq_true_eq] at low
  have first : 0xD800 + (0x10000 + (c.val - 0xD800) * 0x400 + (d.val - 0xDC00) - 0x10000) / 0x400 =
      c.val := by omega
  have second : 0xDC00 + (0x10000 + (c.val - 0xD800) * 0x400 + (d.val - 0xDC00) - 0x10000) % 0x400 =
      d.val := by omega
  rw [first, second]

/-- A pair of surrogates is written as the code point that it stands for. -/
theorem quoted_paired (key : Text) : key.paired.quoted = key.quoted := by
  -- escapes are written one after another, so a pair can be joined wherever it stands
  have inner : key.paired.flatMap escaped = key.flatMap escaped := by
    fun_induction paired key with
    | case1 => rfl
    | case2 => rfl
    | case3 c d rest pair ih =>
      rw [Bool.and_eq_true] at pair
      rw [List.flatMap_cons, List.flatMap_cons, List.flatMap_cons, ih, ← List.append_assoc,
        escaped_joinSurrogates pair.1 pair.2]
    | case4 c d rest _ ih => rw [List.flatMap_cons, List.flatMap_cons, ih]
  rw [quoted, quoted, inner]

theorem paired_eq_of_isWord {key : Text} (word : key.paired.IsWord) : key.paired = key := by
  fun_induction paired key with
  | case1 => rfl
  | case2 => rfl
  | case3 c d rest pair ih =>
    rw [Bool.and_eq_true] at pair
    have printable := CodePoint.isPrintableAscii_of_part (isWord_cons.1 word).1
    rw [CodePoint.isPrintableAscii_iff, Json.val_joinSurrogates pair.1 pair.2] at printable
    omega
  | case4 c d rest _ ih => rw [ih (isWord_cons.1 word).2]

theorem isWhole_of_scalars {t : Text} (scalars : ∀ c ∈ t, c.isSurrogate = false) : t.IsWhole := by
  refine List.Pairwise.isChain (List.pairwise_iff_forall_sublist.2 fun {c d} sublist => ?_)
  have scalar := scalars c (sublist.subset List.mem_cons_self)
  rw [CodePoint.isSurrogate, Bool.or_eq_false_iff] at scalar
  rw [scalar.1, Bool.false_and]

theorem isWhole_of_isPrintable {t : Text} (printable : t.IsPrintable) : t.IsWhole :=
  isWhole_of_scalars (isSurrogate_of_isPrintable printable)

theorem paired_of_isWord {t : Text} (word : t.IsWord) : t.paired = t :=
  paired_of_isWhole (isWhole_of_isPrintable fun c member =>
    CodePoint.isPrintableAscii_of_part (word c member))

theorem eq_of_paired_isWord {key other : Text} (word : key.IsWord) (same : key.paired = other.paired) :
    key = other := by
  rw [paired_of_isWord word] at same
  rw [same]
  exact paired_eq_of_isWord (same ▸ word)

/-- Keys are written alike exactly if they are the same up to pairs of surrogates. -/
theorem propertyKey_eq_iff {key other : Text} :
    key.propertyKey = other.propertyKey ↔ key.paired = other.paired := by
  constructor
  · intro same
    have ends : EndsWord [] := nofun
    exact (propertyKey_append_inj ends ends (congrArg (· ++ []) same)).1
  · intro same
    rw [propertyKey, propertyKey]
    split
    · next named => rw [← eq_of_paired_isWord (isWord_of_isIdentifier named) same, if_pos named]
    · next unnamed =>
      have alsoUnnamed : ¬ other.isIdentifier := fun named =>
        unnamed (eq_of_paired_isWord (isWord_of_isIdentifier named) same.symm ▸ named)
      rw [if_neg alsoUnnamed, ← quoted_paired, same, quoted_paired]

/-! ## Keys without pairs -/

/-- How a key is written: so that it stays where it is put, and so that it can be told from the text. -/
structure WrittenSafely (key : Text) : Prop where
  nonempty : key.propertyKey ≠ []
  printable : key.propertyKey.IsPrintable
  /-- Without a quotation mark at its front the text is the key, and an identifier. -/
  bare : key.propertyKey.head? ≠ some (CodePoint.ofChar '"') → key.propertyKey = key ∧ key.isIdentifier
  /-- With a quotation mark at its front it is a sample that reads as the key. -/
  readsBack : key.propertyKey.head? = some (CodePoint.ofChar '"') →
    Json.read key.propertyKey =
      .ok ⟨some (.string key), Json.sizeWarning key.propertyKey ++ [⟨.parsed, []⟩]⟩
  /-- In front of other text it is a string literal that ends where that text begins. -/
  closed (later : Text) : key.propertyKey.head? = some (CodePoint.ofChar '"') →
    Json.scan '"' ((key.propertyKey ++ later).tail) = (.string key, later)
  unique (other : Text) : other.IsWhole → other.propertyKey = key.propertyKey → other = key

/-- A key is written safely unless a high surrogate stands right before a low one in it. So is every key
without surrogates. -/
theorem writtenSafely_of_isWhole {key : Text} (whole : key.IsWhole) : key.WrittenSafely where
  nonempty := propertyKey_ne_nil key
  printable := isPrintable_propertyKey key
  bare unmarked := by
    rcases propertyKey_cases key with ⟨named, itself, _⟩ | ⟨_, marked⟩
    · exact ⟨itself, named⟩
    · exact absurd marked unmarked
  readsBack marked := by
    rcases propertyKey_cases key with ⟨_, _, unmarked⟩ | ⟨isQuoted, _⟩
    · exact absurd marked unmarked
    · rw [isQuoted, read_quoted, paired_of_isWhole whole]
  closed later marked := by
    rcases propertyKey_cases key with ⟨_, _, unmarked⟩ | ⟨isQuoted, _⟩
    · exact absurd marked unmarked
    · rw [isQuoted, scan_quoted, paired_of_isWhole whole]
  unique other alsoWhole same := by
    rw [propertyKey_eq_iff, paired_of_isWhole alsoWhole, paired_of_isWhole whole] at same
    exact same

def escapeLike : Text := "\\u0041\"\n\x7f😀"

theorem writtenSafely_escapeLike :
    (∀ c ∈ escapeLike, c.isSurrogate = false) ∧
      escapeLike.propertyKey = "\"\\\\u0041\\\"\\n\\u007f\\ud83d\\ude00\"" ∧
      escapeLike.WrittenSafely := by
  have scalars : ∀ c ∈ escapeLike, c.isSurrogate = false := by decide
  exact ⟨scalars, by cbv, writtenSafely_of_isWhole (isWhole_of_scalars scalars)⟩

end Text

end JsonShape
