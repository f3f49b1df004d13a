import JsonShape.Json.Token
import JsonShape.Proofs.Numerals
import JsonShape.Proofs.StringLiterals

/-! Scanning tokens.

A token takes a text that spells it off the front of the rest, and what spells a token is scanned as it.
Numerals are the only tokens that what follows could lengthen.
-/

set_option autoImplicit false

namespace JsonShape.Json

/-! ## Spaces -/

theorem isSpace_iff {c : CodePoint} : isSpace c ↔ c ∈ spacePoints := by
  simp [isSpace, spacePoints, or_assoc]

theorem skipSpace_split (t : Text) : ∃ before, Spaces before ∧ t = before ++ skipSpace t :=
  ⟨t.takeWhile isSpace, fun _ member => isSpace_iff.1 (List.mem_takeWhile_imp member),
    (List.takeWhile_append_dropWhile).symm⟩

theorem skipSpace_append {before : Text} (blank : Spaces before) (t : Text) :
    skipSpace (before ++ t) = skipSpace t :=
  List.dropWhile_append_of_pos fun c member => isSpace_iff.2 (blank c member)

theorem skipSpace_cons {c : CodePoint} {t : Text} (visible : c ∉ spacePoints) :
    skipSpace (c :: t) = c :: t :=
  List.dropWhile_cons_of_neg fun space => visible (isSpace_iff.1 space)

theorem skipSpace_spaces {t : Text} (blank : Spaces t) : skipSpace t = [] := by
  simpa [skipSpace] using skipSpace_append blank []

/-! ## Tokens -/

def Token.fixed? : Token → Option Text
  | .openArray => some ['[']
  | .closeArray => some [']']
  | .openObject => some ['\x7b']
  | .closeObject => some ['\x7d']
  | .comma => some [',']
  | .colon => some [':']
  | .null => some "null"
  | .bool true => some "true"
  | .bool false => some "false"
  | _ => none

inductive Lexeme : Token → Text → Prop where
  | fixed {token : Token} {t : Text} (is : token.fixed? = some t) : Lexeme token t
  | numeral {n : Numeral} {t : Text} (spelled : SpellsNumeral n t) : Lexeme (.numeral n) t
  | string {s t : Text} (spelled : SpellsString s t) : Lexeme (.string s) t

theorem Lexeme.eq_of_fixed {token : Token} {t word : Text} (lexeme : Lexeme token t)
    (is : token.fixed? = some word) : t = word := by
  cases lexeme with
  | fixed same => exact Option.some.inj (same.symm.trans is)
  | _ => cases is

theorem Token.ne_numeral_of_fixed {token : Token} {word : Text} (is : token.fixed? = some word)
    (n : Numeral) : token ≠ .numeral n := by
  rintro rfl
  cases is

def Token.isFaulty : Token → Bool
  | .constant _ | .broken _ | .junk => true
  | _ => false

theorem eq_of_scanWord {word t rest : Text} {token found : Token}
    (scanned : scanWord word token t = some (found, rest)) : found = token ∧ t = word ++ rest := by
  simp only [scanWord, Option.map_eq_some_iff, Prod.mk.injEq] at scanned
  obtain ⟨after, isAfter, rfl, rfl⟩ := scanned
  exact ⟨rfl, after?_eq_some isAfter⟩

/-- How a text begins with a token, and what follows it. -/
inductive Begins (t : Text) : Token → Text → Prop where
  | lexeme {token : Token} {text after : Text} (lexeme : Lexeme token text) (parts : t = text ++ after) :
      Begins t token after
  | constant {c : Constant} {after : Text} (parts : t = c.name ++ after) : Begins t (.constant c) after
  | broken {fault : Fault} (literal : fault.cause.inLiteral) : Begins t (.broken fault) []
  | junk : Begins t .junk []

theorem begins_of_scanPlain {t rest : Text} {token : Token}
    (scanned : scanPlain t = some (token, rest)) : Begins t token rest := by
  simp only [scanPlain, Option.or_eq_some_iff, scanConstant] at scanned
  rcases scanned with h | ⟨_, h | ⟨_, h | ⟨_, h | ⟨_, h | ⟨_, h | ⟨_, h⟩⟩⟩⟩⟩⟩
  iterate 3
    · obtain ⟨rfl, parts⟩ := eq_of_scanWord h
      exact .lexeme (.fixed rfl) parts
  iterate 3
    · obtain ⟨rfl, parts⟩ := eq_of_scanWord h
      exact .constant parts
  · simp only [scanNumber, Option.map_eq_some_iff, Prod.mk.injEq] at h
    obtain ⟨⟨n, after⟩, numeral, rfl, rfl⟩ := h
    obtain ⟨text, spelled, parts⟩ := numeral_of_scan numeral
    exact .lexeme (.numeral spelled) parts

theorem begins_of_scan (c : CodePoint) (rest : Text) : Begins (c :: rest) (scan c rest).1 (scan c rest).2 := by
  unfold scan
  iterate 6
    split
    · next is => exact .lexeme (.fixed rfl) (by rw [is]; rfl)
  split
  · next is =>
    split
    · next found =>
      obtain ⟨pieces, inner, spelled, rfl, rfl⟩ := pieces_of_scanString found
      exact .lexeme (.string (.quoted spelled)) (by rw [is]; simp [enclosed, separated])
    · next stopped => exact .broken (scanString_fault stopped)
  · cases plain : scanPlain (c :: rest) with
    | none => exact .junk
    | some result => exact begins_of_scanPlain plain

/-- A scanned token is spelled by what it took off the text. -/
theorem lexeme_of_scan {c : CodePoint} {rest after : Text} {token : Token}
    (scanned : scan c rest = (token, after)) (sound : token.isFaulty = false) :
    ∃ t, Lexeme token t ∧ c :: rest = t ++ after := by
  have begins := begins_of_scan c rest
  rw [scanned] at begins
  cases begins with
  | lexeme lexeme parts => exact ⟨_, lexeme, parts⟩
  | constant | broken | junk => cases sound

theorem Begins.inLiteral {t after : Text} {fault : Fault} (begins : Begins t (.broken fault) after) :
    fault.cause.inLiteral := by
  cases begins with
  | lexeme lexeme => cases lexeme with | fixed is => cases is
  | broken literal => exact literal

theorem Begins.name {t after : Text} {c : Constant} (begins : Begins t (.constant c) after) :
    t = c.name ++ after := by
  cases begins with
  | lexeme lexeme => cases lexeme with | fixed is => cases is
  | constant parts => exact parts

theorem SpellsNumeral.head {n : Numeral} {t : Text} (spelled : SpellsNumeral n t) :
    (∃ d tail, t = figure d :: tail) ∨ ∃ d tail, t = CodePoint.ofChar '-' :: figure d :: tail := by
  obtain @⟨negative, _, whole, _, _, afterPoint, afterLetter, isWhole, _, _⟩ := spelled
  have digits : whole ≠ [] := by cases isWhole <;> exact List.cons_ne_nil _ _
  obtain ⟨d, whole, rfl⟩ := List.exists_cons_of_ne_nil digits
  cases negative with
  | true => exact .inr ⟨d, _, rfl⟩
  | false => exact .inl ⟨d, _, rfl⟩

theorem scanWord_of_head_ne {c d : CodePoint} {word t : Text} {token : Token} (differ : c ≠ d) :
    scanWord (c :: word) token (d :: t) = none := by
  rw [scanWord, after?, if_neg differ, Option.map_none]

/-- No word is mistaken for the start of a numeral. -/
theorem scanPlain_numeral {n : Numeral} {t : Text} (spelled : SpellsNumeral n t) (rest : Text) :
    scanPlain (t ++ rest) = scanNumber (t ++ rest) := by
  have letter {c : CodePoint} (isLetter : c.isAsciiDigit = false) (d : Digit) : c ≠ figure d :=
    (figure_ne isLetter).symm
  rcases spelled.head with ⟨d, tail, rfl⟩ | ⟨d, tail, rfl⟩
  · have null : scanWord "null" .null (figure d :: tail ++ rest) = none :=
      scanWord_of_head_ne (letter (by decide) d)
    have true : scanWord "true" (.bool true) (figure d :: tail ++ rest) = none :=
      scanWord_of_head_ne (letter (by decide) d)
    have false : scanWord "false" (.bool false) (figure d :: tail ++ rest) = none :=
      scanWord_of_head_ne (letter (by decide) d)
    have constant (c : Constant) : scanConstant c (figure d :: tail ++ rest) = none := by
      cases c <;> exact scanWord_of_head_ne (letter (by decide) d)
    simp only [scanPlain, null, true, false, constant, Option.none_or]
  · have null (t : Text) : scanWord "null" .null (CodePoint.ofChar '-' :: t) = none := rfl
    have true (t : Text) : scanWord "true" (.bool true) (CodePoint.ofChar '-' :: t) = none := rfl
    have false (t : Text) : scanWord "false" (.bool false) (CodePoint.ofChar '-' :: t) = none := rfl
    have nan (t : Text) : scanConstant .nan (CodePoint.ofChar '-' :: t) = none := rfl
    have infinity (t : Text) : scanConstant .infinity (CodePoint.ofChar '-' :: t) = none := rfl
    -- the one word with a minus goes on with a letter where a numeral has a digit
    have negativeInfinity (t : Text) :
        scanConstant .negativeInfinity (CodePoint.ofChar '-' :: figure d :: t) = none :=
      congrArg (Option.map fun after => (Token.constant .negativeInfinity, after))
        (if_neg (letter (by decide) d))
    simp only [List.cons_append, scanPlain, null, true, false, nan, infinity, negativeInfinity,
      Option.none_or]

theorem scan_numeral {n : Numeral} {t rest : Text} (spelled : SpellsNumeral n t)
    (ended : StartsIn valueEnds rest) :
    ∃ c tail, t ++ rest = c :: tail ∧ c ∉ spacePoints ∧ scan c tail = (.numeral n, rest) := by
  have plain : scanPlain (t ++ rest) = some (.numeral n, rest) := by
    rw [scanPlain_numeral spelled, scanNumber, scanNumeral?_spelled spelled ended]
    rfl
  have starts : ∃ c tail, t = c :: tail ∧ (c.isAsciiDigit ∨ c = '-') := by
    rcases spelled.head with ⟨d, tail, rfl⟩ | ⟨d, tail, rfl⟩
    · exact ⟨_, _, rfl, .inl (isAsciiDigit_figure d)⟩
    · exact ⟨_, _, rfl, .inr rfl⟩
  obtain ⟨c, tail, rfl, starts⟩ := starts
  -- a digit or a minus is none of the marks that are told apart before words and numerals
  have unmarked {d : CodePoint} (other : d.isAsciiDigit = false ∧ d ≠ '-') : c ≠ d := by
    rintro rfl
    rcases starts with digit | isMinus
    · exact Bool.false_ne_true (other.1.symm.trans digit)
    · exact other.2 isMinus
  refine ⟨c, tail ++ rest, rfl, ?_, ?_⟩
  · simp only [spacePoints, List.mem_cons, List.not_mem_nil, or_false, not_or]
    exact ⟨unmarked (by decide), unmarked (by decide), unmarked (by decide), unmarked (by decide)⟩
  · rw [scan]
    iterate 7 rw [if_neg (unmarked (by decide))]
    rw [← List.cons_append, plain]
    rfl

theorem scan_quote (t : Text) :
    scan '"' t =
      match scanString ('"' :: t) [] t with
      | .ok (s, after) => (.string s, after)
      | .error fault => (.broken fault, []) := rfl

/-- What spells a token is scanned as it. -/
theorem scan_lexeme {token : Token} {t rest : Text} (lexeme : Lexeme token t)
    (ended : ∀ n, token = .numeral n → StartsIn valueEnds rest) :
    ∃ c tail, t ++ rest = c :: tail ∧ c ∉ spacePoints ∧ scan c tail = (token, rest) := by
  cases lexeme with
  | fixed is =>
    cases token with
    | bool b => cases b <;> cases is <;> exact ⟨_, _, rfl, by decide, rfl⟩
    | _ => cases is; try exact ⟨_, _, rfl, by decide, rfl⟩
  | numeral spelled => exact scan_numeral spelled (ended _ rfl)
  | string spelled =>
    obtain @⟨pieces, inner, spelled⟩ := spelled
    refine ⟨'"', separated inner '"' rest, by simp [enclosed, separated], by decide, ?_⟩
    rw [scan_quote, scanString_pieces spelled]
    rfl

end JsonShape.Json
