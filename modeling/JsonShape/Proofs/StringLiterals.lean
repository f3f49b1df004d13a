import JsonShape.Json.StringLiteral
import JsonShape.Proofs.Grammar

/-! Scanning string literals.

The escapes of a string are pieces of the grammar. Whether the escape of a high surrogate stands alone
depends on the piece after it, which is what looking ahead tells.
-/

set_option autoImplicit false

namespace JsonShape.Json

/-! ## Escapes -/

theorem hexValue?_eq_some {c : CodePoint} {n : Nat} : hexValue? c = some n ↔ SpellsHex c n := by
  constructor
  · intro valued
    unfold hexValue? at valued
    split at valued
    · next isDigit =>
      cases valued
      simp only [CodePoint.isAsciiDigit, Bool.and_eq_true, decide_eq_true_eq] at isDigit
      exact .figure (by omega) (by omega)
    · split at valued
      · next isLower =>
        cases valued
        simp only [Bool.and_eq_true, decide_eq_true_eq] at isLower
        rw [Nat.add_comm]
        exact .lower (by omega) (by omega)
      · split at valued
        · next isUpper =>
          cases valued
          simp only [Bool.and_eq_true, decide_eq_true_eq] at isUpper
          rw [Nat.add_comm]
          exact .upper (by omega) (by omega)
        · cases valued
  · intro spelled
    unfold hexValue?
    simp only [CodePoint.isAsciiDigit, Bool.and_eq_true, decide_eq_true_eq]
    cases spelled with
    | figure small at0 => rw [if_pos (by omega), at0, Nat.add_sub_cancel_left]
    | lower small atA =>
      rw [if_neg (by omega), if_pos (by omega), atA, Nat.add_sub_cancel_left, Nat.add_comm]
    | upper small atA =>
      rw [if_neg (by omega), if_neg (by omega), if_pos (by omega), atA, Nat.add_sub_cancel_left,
        Nat.add_comm]

theorem escapeMeaning?_eq_some {letter c : CodePoint} :
    escapeMeaning? letter = some c ↔ (letter, c) ∈ shortEscapes := by
  constructor
  · intro meant
    unfold escapeMeaning? at meant
    repeat' split at meant
    all_goals cases meant
    all_goals subst letter
    all_goals decide
  · intro listed
    simp only [shortEscapes, List.mem_cons, Prod.mk.injEq, List.not_mem_nil, or_false] at listed
    rcases listed with ⟨rfl, rfl⟩ | ⟨rfl, rfl⟩ | ⟨rfl, rfl⟩ | ⟨rfl, rfl⟩ | ⟨rfl, rfl⟩ | ⟨rfl, rfl⟩ |
      ⟨rfl, rfl⟩ | ⟨rfl, rfl⟩ <;> rfl

theorem ne_u_of_short {letter c : CodePoint} (listed : (letter, c) ∈ shortEscapes) : letter ≠ 'u' := by
  have letters : ∀ e ∈ shortEscapes, e.1 ≠ 'u' := by decide
  exact letters _ listed

/-- Four hexadecimal digits are read if something follows them. -/
theorem hexEscape?_eq_some {t later : Text} {c : CodePoint} :
    hexEscape? t = some (c, later) ↔
      later ≠ [] ∧ ∃ digits, SpellsPiece (.numbered c) ('\\' :: 'u' :: digits) ∧ t = digits ++ later := by
  constructor
  · intro found
    unfold hexEscape? at found
    split at found
    · next a b c d e tail =>
      simp only [Option.bind_eq_bind, Option.bind_eq_some_iff, Option.some.injEq, Prod.mk.injEq,
        hexValue?_eq_some] at found
      obtain ⟨w, first, x, second, y, third, z, fourth, rfl, rfl⟩ := found
      exact ⟨List.cons_ne_nil _ _, [a, b, c, d], .numbered first second third fourth, rfl⟩
    · cases found
  · rintro ⟨some, digits, spelled, rfl⟩
    obtain ⟨e, later, rfl⟩ := List.exists_cons_of_ne_nil some
    cases spelled with
    | numbered first second third fourth =>
      simp [hexEscape?, hexValue?_eq_some.2 first, hexValue?_eq_some.2 second,
        hexValue?_eq_some.2 third, hexValue?_eq_some.2 fourth]

theorem SpellsPiece.digits {c : CodePoint} {t : Text} (spelled : SpellsPiece (.numbered c) t) :
    ∃ digits, t = CodePoint.ofChar '\\' :: CodePoint.ofChar 'u' :: digits := by
  cases spelled with
  | numbered first second third fourth => exact ⟨_, rfl⟩

theorem lowSurrogate?_numbered {c : CodePoint} {here later : Text}
    (spelled : SpellsPiece (.numbered c) here) (going : later ≠ []) :
    lowSurrogate? (here ++ later) = if c.isLowSurrogate then some (c, later) else none := by
  cases spelled with
  | numbered first second third fourth =>
    have read := hexEscape?_eq_some.2 ⟨going, _, .numbered first second third fourth, rfl⟩
    simp only [List.cons_append, List.nil_append, lowSurrogate?, and_self, if_true] at read ⊢
    rw [read, Option.filter_some]

theorem lowSurrogate?_plain {c : CodePoint} {here later : Text} (spelled : SpellsPiece (.plain c) here) :
    lowSurrogate? (here ++ later) = none := by
  cases spelled with
  | itself printing noQuote noBackslash =>
    cases later with
    | nil => rfl
    | cons d later => exact if_neg fun both => noBackslash both.1
  | short listed => exact if_neg fun both => ne_u_of_short listed both.2

theorem escape_of_lowSurrogate {t later : Text} {c : CodePoint}
    (found : lowSurrogate? t = some (c, later)) :
    c.isLowSurrogate ∧ ∃ here, SpellsPiece (.numbered c) here ∧ t = here ++ later := by
  unfold lowSurrogate? at found
  split at found
  · split at found
    · next escape =>
      rw [Option.filter_eq_some_iff, hexEscape?_eq_some] at found
      obtain ⟨⟨_, digits, spelled, rfl⟩, low⟩ := found
      exact ⟨low, _, spelled, by rw [escape.1, escape.2]; rfl⟩
    · cases found
  · cases found

/-! ## Pieces next to each other -/

/-- Whether the first piece would complete a high surrogate before it. -/
def startsLow : List Piece → Bool
  | .numbered d :: _ => d.isLowSurrogate
  | _ => false

theorem lowSurrogate?_pieces {pieces : List Piece} {t : Text} (spelled : SpellsPieces pieces t)
    (later : Text) : (lowSurrogate? (separated t '"' later)).isSome = startsLow pieces := by
  cases spelled with
  | none => cases later <;> rfl
  | @more p rest here after first others =>
    rw [separated, List.append_assoc, ← separated]
    cases p with
    | plain c => rw [lowSurrogate?_plain first]; rfl
    | numbered c =>
      rw [lowSurrogate?_numbered first (separated_ne_nil after '"' later), startsLow]
      cases c.isLowSurrogate <;> rfl

theorem lowSurrogate?_of_startsLow {pieces : List Piece} {t : Text} (spelled : SpellsPieces pieces t)
    (notLow : startsLow pieces = false) (later : Text) :
    lowSurrogate? (separated t '"' later) = none := by
  rw [← Option.not_isSome_iff_eq_none, lowSurrogate?_pieces spelled later, notLow]
  exact Bool.false_ne_true

theorem joinPieces_pair {c d : CodePoint} {rest : List Piece} (high : c.isHighSurrogate)
    (low : d.isLowSurrogate) :
    joinPieces (.numbered c :: .numbered d :: rest) =
      CodePoint.joinSurrogates c d :: joinPieces rest := by
  rw [joinPieces, high, low, Bool.and_self, if_pos rfl]

theorem joinPieces_alone {c : CodePoint} {rest : List Piece}
    (alone : c.isHighSurrogate → startsLow rest = false) :
    joinPieces (.numbered c :: rest) = c :: joinPieces rest := by
  match rest with
  | [] => rfl
  | .plain d :: rest => rfl
  | .numbered d :: rest =>
    rw [joinPieces, if_neg]
    rw [Bool.and_eq_true]
    rintro ⟨high, low⟩
    exact Bool.false_ne_true ((alone high).symm.trans low)

/-! ## What is scanned is spelled -/

theorem pieces_of_unicodeEscape {t after later inner : Text} {c : CodePoint} {pieces : List Piece}
    (read : unicodeEscape? t = some (c, after)) (spelled : SpellsPieces pieces inner)
    (isAfter : after = separated inner '"' later) :
    ∃ more here, SpellsPieces more here ∧
      CodePoint.ofChar '\\' :: CodePoint.ofChar 'u' :: t = separated here '"' later ∧
      joinPieces more = c :: joinPieces pieces := by
  unfold unicodeEscape? at read
  split at read
  · cases read
  · next first tail escape =>
    obtain ⟨_, digits, isFirst, rfl⟩ := hexEscape?_eq_some.1 escape
    split at read
    · next high =>
      split at read
      · next second rest pair =>
        obtain ⟨rfl, rfl⟩ := Prod.mk.inj (Option.some.inj read)
        obtain ⟨low, here, isSecond, rfl⟩ := escape_of_lowSurrogate pair
        refine ⟨_, _, .more isFirst (.more isSecond spelled), ?_, joinPieces_pair high low⟩
        rw [isAfter]
        simp [separated]
      · next unpaired =>
        cases read
        refine ⟨_, _, .more isFirst spelled, ?_, joinPieces_alone fun _ => ?_⟩
        · rw [isAfter]
          simp [separated]
        · -- no low surrogate was found ahead, so none begins the pieces after this one
          rw [← lowSurrogate?_pieces spelled later, ← isAfter, unpaired]
          rfl
    · next notHigh =>
      cases read
      refine ⟨_, _, .more isFirst spelled, ?_, joinPieces_alone fun high => absurd high notHigh⟩
      rw [isAfter]
      simp [separated]

/-- What a backslash starts: one piece, or two that are joined. -/
theorem pieces_of_scanEscape {opening t after later inner : Text} {c : CodePoint} {pieces : List Piece}
    (scanned : scanEscape opening (CodePoint.ofChar '\\' :: t) = .ok (c, after))
    (spelled : SpellsPieces pieces inner) (isAfter : after = separated inner '"' later) :
    ∃ more here, SpellsPieces more here ∧
      CodePoint.ofChar '\\' :: t = separated here '"' later ∧
      joinPieces more = c :: joinPieces pieces := by
  rw [scanEscape, List.tail_cons] at scanned
  split at scanned
  · cases scanned
  · next e rest =>
    split at scanned
    · next isU =>
      split at scanned
      · next read =>
        cases scanned
        rw [isU]
        exact pieces_of_unicodeEscape read spelled isAfter
      · cases scanned
    · split at scanned
      · next meant =>
        cases scanned
        refine ⟨.plain c :: pieces, _, .more (.short (escapeMeaning?_eq_some.1 meant)) spelled, ?_, rfl⟩
        rw [isAfter]
        rfl
      · cases scanned

/-- A scanned literal is spelled by its pieces up to the closing mark. -/
theorem pieces_of_scanString {opening done t s later : Text}
    (scanned : scanString opening done t = .ok (s, later)) :
    ∃ pieces inner, SpellsPieces pieces inner ∧ t = separated inner '"' later ∧
      s = done.reverse ++ joinPieces pieces := by
  fun_induction scanString opening done t with
  | case1 => cases scanned
  | case2 done => cases scanned; exact ⟨[], [], .none, rfl, (List.append_nil _).symm⟩
  | case3 done tail meaning after _ escape ih =>
    obtain ⟨pieces, inner, spelled, isAfter, rfl⟩ := ih scanned
    obtain ⟨more, here, spelledMore, isHere, joined⟩ := pieces_of_scanEscape escape spelled isAfter
    refine ⟨more, here, spelledMore, isHere, ?_⟩
    rw [joined, List.reverse_cons, List.append_assoc, List.singleton_append]
  | case4 => cases scanned
  | case5 => cases scanned
  | case6 done c tail noQuote noBackslash printing ih =>
    obtain ⟨pieces, inner, spelled, rfl, rfl⟩ := ih scanned
    refine ⟨_, _, .more (.itself (Nat.le_of_not_lt printing) noQuote noBackslash) spelled, rfl, ?_⟩
    rw [joinPieces, List.reverse_cons, List.append_assoc, List.singleton_append]

/-! ## Literals that break off -/

def Cause.inLiteral : Cause → Bool
  | .unterminatedString | .controlCharacter | .badEscape | .badUnicodeEscape => true
  | _ => false

theorem scanEscape_fault {opening t : Text} {fault : Fault}
    (stopped : scanEscape opening t = .error fault) : fault.cause.inLiteral := by
  rw [scanEscape] at stopped
  split at stopped
  · cases stopped; rfl
  · split at stopped
    · split at stopped <;> cases stopped
      rfl
    · split at stopped <;> cases stopped
      rfl

theorem scanString_fault {opening done t : Text} {fault : Fault}
    (stopped : scanString opening done t = .error fault) : fault.cause.inLiteral := by
  fun_induction scanString opening done t with
  | case1 => cases stopped; rfl
  | case2 => cases stopped
  | case3 done tail meaning after _ escape ih => exact ih stopped
  | case4 done tail found _ escape => cases stopped; exact scanEscape_fault escape
  | case5 => cases stopped; rfl
  | case6 done c tail _ _ _ ih => exact ih stopped

/-! ## What is spelled is scanned -/

theorem scanString_escape {opening done t after : Text} {c : CodePoint}
    (scanned : scanEscape opening (CodePoint.ofChar '\\' :: t) = .ok (c, after)) :
    scanString opening done (CodePoint.ofChar '\\' :: t) = scanString opening (c :: done) after := by
  rw [scanString, if_neg (by decide), if_pos rfl]
  split
  · next found => cases scanned.symm.trans found; rfl
  · next found => cases scanned.symm.trans found

theorem scanString_plain {opening done here later : Text} {c : CodePoint}
    (spelled : SpellsPiece (.plain c) here) :
    scanString opening done (here ++ later) = scanString opening (c :: done) later := by
  cases spelled with
  | itself printing noQuote noBackslash =>
    rw [List.singleton_append, scanString, if_neg noQuote, if_neg noBackslash,
      if_neg (Nat.not_lt.2 printing)]
  | short listed =>
    refine scanString_escape ?_
    simp [scanEscape, ne_u_of_short listed, escapeMeaning?_eq_some.2 listed]

theorem scanString_unicode {opening done t after : Text} {c : CodePoint}
    (read : unicodeEscape? t = some (c, after)) :
    scanString opening done (CodePoint.ofChar '\\' :: CodePoint.ofChar 'u' :: t) =
      scanString opening (c :: done) after :=
  scanString_escape (by rw [scanEscape, List.tail_cons]; simp only [if_true, read])

theorem scanString_alone {opening done here later : Text} {c : CodePoint}
    (spelled : SpellsPiece (.numbered c) here) (going : later ≠ [])
    (alone : c.isHighSurrogate → lowSurrogate? later = none) :
    scanString opening done (here ++ later) = scanString opening (c :: done) later := by
  obtain ⟨digits, rfl⟩ := spelled.digits
  have escape := hexEscape?_eq_some.2 ⟨going, digits, spelled, rfl⟩
  refine scanString_unicode ?_
  rw [unicodeEscape?, List.append_eq, escape]
  by_cases high : c.isHighSurrogate
  · simp only [high, if_true, alone high]
  · exact if_neg high

theorem scanString_pair {opening done here later rest : Text} {c d : CodePoint}
    (spelled : SpellsPiece (.numbered c) here) (going : later ≠ []) (high : c.isHighSurrogate)
    (paired : lowSurrogate? later = some (d, rest)) :
    scanString opening done (here ++ later) =
      scanString opening (CodePoint.joinSurrogates c d :: done) rest := by
  obtain ⟨digits, rfl⟩ := spelled.digits
  have escape := hexEscape?_eq_some.2 ⟨going, digits, spelled, rfl⟩
  refine scanString_unicode ?_
  rw [unicodeEscape?, List.append_eq, escape]
  simp only [high, if_true, paired]

theorem scanString_pieces {pieces : List Piece} {inner : Text} (spelled : SpellsPieces pieces inner)
    (opening done later : Text) :
    scanString opening done (separated inner '"' later) =
      .ok (done.reverse ++ joinPieces pieces, later) := by
  -- a pair is taken off the text as a whole, so the induction is on the pieces as they are joined
  fun_induction joinPieces pieces generalizing inner done with
  | case1 =>
    cases spelled with
    | none => rw [separated, List.nil_append, scanString, if_pos rfl, List.append_nil]
  | case2 c rest ih =>
    cases spelled with
    | more first others =>
      rw [separated, List.append_assoc, scanString_plain first, ← separated, ih others]
      simp
  | case3 c d rest pair ih =>
    rw [Bool.and_eq_true] at pair
    cases spelled with
    | more first others =>
      cases others with
      | @more _ _ here second last others =>
        have paired : lowSurrogate? (here ++ separated second '"' later) =
            some (d, separated second '"' later) := by
          rw [lowSurrogate?_numbered last (separated_ne_nil _ _ _), if_pos pair.2]
        rw [separated, List.append_assoc, List.append_assoc, ← separated,
          scanString_pair first (List.append_ne_nil_of_right_ne_nil _ (separated_ne_nil _ _ _)) pair.1
            paired, ih others]
        simp
  | case4 c d rest unpaired ih =>
    cases spelled with
    | more first others =>
      rw [separated, List.append_assoc, ← separated,
        scanString_alone first (separated_ne_nil _ _ _) fun high => ?_, ih others]
      · simp
      · refine lowSurrogate?_of_startsLow others ?_ later
        rw [startsLow]
        simpa [high] using unpaired
  | case5 c rest single ih =>
    cases spelled with
    | more first others =>
      rw [separated, List.append_assoc, ← separated,
        scanString_alone first (separated_ne_nil _ _ _) fun _ => ?_, ih others]
      · simp
      · refine lowSurrogate?_of_startsLow others ?_ later
        rw [startsLow.eq_def]
        split
        · next d rest => exact (single d rest rfl).elim
        · rfl

end JsonShape.Json
