import JsonShape.Proofs.Limits
import Mathlib.Data.List.Permutation

/-! Where a bare constant is found.

The reader stops at a bare constant, and the place of the constant is looked up in the text afterwards. No
constant is found earlier: the look-up goes past everything that the reader takes for spaces or for a token,
and past string literals as a whole.
-/

set_option autoImplicit false

namespace JsonShape.Json

/-! ## String literals -/

theorem afterLiteral?_plain {c : CodePoint} (noQuote : c ≠ '"') (noBackslash : c ≠ '\\') (t : Text) :
    afterLiteral? (c :: t) = afterLiteral? t := by
  cases t with
  | nil => exact if_neg noQuote
  | cons d t => rw [afterLiteral?, if_neg noQuote, if_neg noBackslash]

theorem afterLiteral?_escape {c : CodePoint} (sameLine : c ≠ '\n') (t : Text) :
    afterLiteral? (CodePoint.ofChar '\\' :: c :: t) = afterLiteral? t := by
  rw [afterLiteral?, if_neg (by decide), if_pos rfl, if_neg sameLine]

theorem afterLiteral?_quote (t : Text) : afterLiteral? (CodePoint.ofChar '"' :: t) = some t := by
  cases t <;> rfl

theorem SpellsHex.plain {c : CodePoint} {n : Nat} (spelled : SpellsHex c n) : c ≠ '"' ∧ c ≠ '\\' := by
  have quote : (CodePoint.ofChar '"').val = 0x22 := rfl
  have backslash : (CodePoint.ofChar '\\').val = 0x5C := rfl
  constructor <;> rintro rfl <;> cases spelled <;> omega

theorem afterLiteral?_piece {p : Piece} {here : Text} (spelled : SpellsPiece p here) (later : Text) :
    afterLiteral? (here ++ later) = afterLiteral? later := by
  cases spelled with
  | itself printing noQuote noBackslash => exact afterLiteral?_plain noQuote noBackslash later
  | @short letter c listed =>
    have sameLine : ∀ e ∈ shortEscapes, e.1 ≠ '\n' := by decide
    exact afterLiteral?_escape (sameLine _ listed) later
  | numbered first second third fourth =>
    have hex {c : CodePoint} {n : Nat} (spelled : SpellsHex c n) (t : Text) :
        afterLiteral? (c :: t) = afterLiteral? t := afterLiteral?_plain spelled.plain.1 spelled.plain.2 t
    exact (afterLiteral?_escape (by decide) _).trans <|
      (hex first _).trans <| (hex second _).trans <| (hex third _).trans (hex fourth _)

theorem afterLiteral?_pieces {pieces : List Piece} {inner : Text} (spelled : SpellsPieces pieces inner)
    (later : Text) : afterLiteral? (separated inner '"' later) = some later := by
  induction spelled with
  | none => exact afterLiteral?_quote later
  | more first others ih =>
    rw [separated, List.append_assoc, afterLiteral?_piece first, ← separated, ih]

/-! ## The front of a text -/

def constantStarts : Text := ['N', 'I', '-']

theorem constantAt?_eq_none {c : CodePoint} (other : c ∉ constantStarts) (t : Text) :
    constantAt? (c :: t) = none := by
  rw [constantAt?, List.find?_eq_none]
  intro k _ starts
  obtain ⟨after, same⟩ := List.isPrefixOf_iff_prefix.1 starts
  refine other ?_
  cases k <;> cases same <;> decide

theorem constantAt?_minus (d : Digit) (t : Text) :
    constantAt? (CodePoint.ofChar '-' :: figure d :: t) = none := by
  rw [constantAt?, List.find?_eq_none]
  intro k _ starts
  obtain ⟨after, same⟩ := List.isPrefixOf_iff_prefix.1 starts
  cases k with
  | negativeInfinity => exact figure_ne (by decide) (List.cons.inj (List.cons.inj same).2).1.symm
  | _ => cases (List.cons.inj same).1

theorem constantAt?_name (c : Constant) (t : Text) : constantAt? (c.name ++ t) = some c := by
  cases c <;> rfl

theorem fromConstant?_skip {c : CodePoint} {t : Text} (noQuote : c ≠ '"') (none : constantAt? (c :: t) = none) :
    fromConstant? (c :: t) = fromConstant? t := by
  rw [fromConstant?, if_neg noQuote, none, if_neg (by decide)]

theorem fromConstant?_literal {t later : Text} (closed : afterLiteral? t = some later) :
    fromConstant? (CodePoint.ofChar '"' :: t) = fromConstant? later := by
  rw [fromConstant?, if_pos rfl]
  split
  · next same => cases closed.symm.trans same; rfl
  · next unclosed => cases closed.symm.trans unclosed

theorem fromConstant?_name (c : Constant) (t : Text) : fromConstant? (c.name ++ t) = some (c.name ++ t) := by
  obtain ⟨d, rest, name⟩ : ∃ d rest, c.name = d :: rest := by cases c <;> exact ⟨_, _, rfl⟩
  have noQuote : d ≠ '"' := by
    cases c <;> cases name <;> decide
  have found := constantAt?_name c t
  rw [name, List.cons_append] at found ⊢
  rw [fromConstant?, if_neg noQuote, found]
  rfl

/-! ## Text without constants -/

/-- A text that the look-up goes past, whatever comes after it. -/
def Silent (t : Text) : Prop := ∀ later, fromConstant? (t ++ later) = fromConstant? later

theorem Silent.append {first second : Text} (silent : Silent first) (silent' : Silent second) :
    Silent (first ++ second) := by
  intro later
  rw [List.append_assoc, silent, silent']

theorem silent_nil : Silent [] := fun _ => rfl

theorem silent_of_plain {t : Text} (plain : ∀ c ∈ t, c ≠ '"' ∧ c ∉ constantStarts) : Silent t := by
  intro later
  induction t with
  | nil => rfl
  | cons c t ih =>
    obtain ⟨⟨noQuote, other⟩, plain⟩ := List.forall_mem_cons.1 plain
    rw [List.cons_append, fromConstant?_skip noQuote (constantAt?_eq_none other _), ih plain]

theorem silent_spaces {t : Text} (blank : Spaces t) : Silent t := by
  have plain : ∀ c ∈ spacePoints, c ≠ '"' ∧ c ∉ constantStarts := by decide
  exact silent_of_plain fun c member => plain c (blank c member)

theorem silent_figures (digits : List Digit) : Silent (figures digits) := by
  have plain : ∀ d : Digit, figure d ≠ '"' ∧ figure d ∉ constantStarts := by decide
  exact silent_of_plain (List.forall_mem_map.2 fun d _ => plain d)

theorem silent_minus (d : Digit) (digits : List Digit) :
    Silent (CodePoint.ofChar '-' :: figures (d :: digits)) := by
  intro later
  have number := silent_figures (d :: digits) later
  rw [List.cons_append, ← number]
  exact fromConstant?_skip (by decide) (constantAt?_minus d _)

theorem silent_numeral {n : Numeral} {t : Text} (spelled : SpellsNumeral n t) : Silent t := by
  obtain @⟨negative, _, whole, _, _, afterPoint, afterLetter, isWhole, isFraction, isExponent⟩ := spelled
  have fraction : Silent afterPoint := by
    cases isFraction with
    | absent => exact silent_nil
    | digits some =>
      have point : Silent ['.'] := silent_of_plain (by decide)
      exact point.append (silent_figures _)
  have exponent : Silent afterLetter := by
    cases isExponent with
    | absent => exact silent_nil
    | @digits letter _ sign digits isLetter signed some =>
      obtain ⟨d, digits, rfl⟩ := List.exists_cons_of_ne_nil some
      have letter : Silent [letter] := by
        rcases isLetter with rfl | rfl <;> exact silent_of_plain (by decide)
      refine letter.append ?_
      cases signed with
      | absent => exact silent_figures _
      | plus =>
        have plus : Silent ['+'] := silent_of_plain (by decide)
        exact plus.append (silent_figures _)
      | minus => exact silent_minus d digits
  -- a minus is told from that of a constant by the digit after it
  have digits : whole ≠ [] := by cases isWhole <;> exact List.cons_ne_nil _ _
  obtain ⟨d, whole, rfl⟩ := List.exists_cons_of_ne_nil digits
  rw [← List.append_assoc]
  refine Silent.append ?_ (fraction.append exponent)
  cases negative with
  | true => exact silent_minus d whole
  | false => exact silent_figures _

theorem silent_string {s t : Text} (spelled : SpellsString s t) : Silent t := by
  obtain @⟨pieces, inner, spelled⟩ := spelled
  intro later
  have closed : afterLiteral? ((inner ++ [CodePoint.ofChar '"']) ++ later) = some later := by
    rw [List.append_assoc]
    exact afterLiteral?_pieces spelled later
  exact fromConstant?_literal closed

theorem Lexeme.silent {token : Token} {t : Text} (lexeme : Lexeme token t) : Silent t := by
  cases lexeme with
  | fixed is =>
    cases token with
    | bool b => cases b <;> cases is <;> exact silent_of_plain (by decide)
    | _ => cases is <;> exact silent_of_plain (by decide)
  | numeral spelled => exact silent_numeral spelled
  | string spelled => exact silent_string spelled

/-! ## What comes before the constant -/

/-- A text of spaces and whole tokens. -/
inductive Tokenised : Text → Prop where
  | spaces {t : Text} (blank : Spaces t) : Tokenised t
  | token {before t rest : Text} {token : Token} (blank : Spaces before) (lexeme : Lexeme token t)
      (others : Tokenised rest) : Tokenised (before ++ (t ++ rest))

theorem Tokenised.silent {t : Text} (tokenised : Tokenised t) : Silent t := by
  induction tokenised with
  | spaces blank => exact silent_spaces blank
  | token blank lexeme _ ih => exact (silent_spaces blank).append (lexeme.silent.append ih)

/-- A run stops at a constant only where whole tokens lead to the name of that constant. -/
theorem tokenised_of_run {state : State} {t rest : Text} {c : Constant}
    (stopped : state.run strict t = .error ⟨.constant c, rest⟩) :
    (∃ before, Tokenised before ∧ t = before ++ rest) ∧ ∃ after, rest = c.name ++ after := by
  -- each step that goes on puts spaces and a token in front of what the rest of the run went over
  generalize isRules : strict = rules at stopped
  fun_induction State.run rules state t with
  | case1 state t ended => cases finish_fault stopped
  | case2 state t d later shape after stepped ih =>
    subst isRules
    obtain ⟨spaces, text, blank, lexeme, parts⟩ := lexeme_of_next shape stepped
    obtain ⟨⟨before, tokenised, remains⟩, name⟩ := ih stopped
    refine ⟨⟨_, .token blank lexeme tokenised, ?_⟩, name⟩
    rw [parts, remains, List.append_assoc, List.append_assoc]
  | case3 state t d later shape fault stepped =>
    cases stopped
    obtain ⟨spaces, blank, parts⟩ := skipSpace_split t
    -- of all the ways to stop, only a refused constant gives this cause
    have stops := stops_of_next stepped
    have begins := begins_of_scan d later
    generalize (scan d later).1 = token at stops begins
    cases stops with
    | broken => cases begins.inLiteral
    | misplaced misplaced => cases misplaced
    | constant => exact ⟨⟨spaces, .spaces blank, shape ▸ parts⟩, _, begins.name⟩

/-! ## Lines and columns -/

def lastLine (t : Text) : Text := (t.reverse.takeWhile (· ≠ CodePoint.ofChar '\n')).reverse

theorem position_after (before : Text) : Position.after before =
    ⟨before.length, before.count (CodePoint.ofChar '\n') + 1, (lastLine before).length + 1⟩ := by
  induction before using List.reverseRecOn with
  | nil => rfl
  | append_singleton before c ih =>
    rw [Position.after, List.foldl_append, ← Position.after, ih]
    by_cases newline : c = '\n' <;> simp [Position.advance, lastLine, newline]

theorem position_ofRest (before rest : Text) :
    Position.ofRest (before ++ rest) rest = Position.after before := by
  simp [Position.ofRest]

/-! ## The place -/

/-- Reading stops at a constant after the given text. -/
structure StopsAt (t : Text) (c : Constant) (before rest : Text) : Prop where
  parts : t = before ++ rest
  /-- All tokens before the constant are whole, so that it is inside no string literal. -/
  tokenised : Tokenised before
  found : fromConstant? t = some rest
  named : constantAt? rest = some c
  place : faultPosition t ⟨.constant c, rest⟩ =
    ⟨before.length, before.count (CodePoint.ofChar '\n') + 1, (lastLine before).length + 1⟩
  reported : read t = if t.isEncodable then .ok ⟨none, sizeWarning t ++ [⟨.syntaxError
    (before.count (CodePoint.ofChar '\n') + 1) ((lastLine before).length + 1) (.constant c), []⟩]⟩
    else .error .unencodable

theorem stopsAt_of_decode {t rest : Text} {c : Constant}
    (stopped : decode strict t = .error ⟨.constant c, rest⟩) : ∃ before, StopsAt t c before rest := by
  have ran : State.run strict (.value []) t = .error ⟨.constant c, rest⟩ := by
    rw [decode] at stopped
    split at stopped
    · cases stopped
    · exact stopped
  obtain ⟨⟨before, tokenised, rfl⟩, after, name⟩ := tokenised_of_run ran
  have found : fromConstant? (before ++ rest) = some rest := by
    rw [tokenised.silent, name, fromConstant?_name]
  have place : faultPosition (before ++ rest) ⟨.constant c, rest⟩ =
      ⟨before.length, before.count (CodePoint.ofChar '\n') + 1, (lastLine before).length + 1⟩ := by
    rw [faultPosition, found, Option.getD_some, position_ofRest, position_after]
  have visible : (before ++ rest).isBlank = false := by
    have printed : c.name.all CodePoint.isBlank = false := by cases c <;> decide
    rw [Text.isBlank, name, List.all_append, List.all_append, printed, Bool.false_and, Bool.and_false]
  refine ⟨before, rfl, tokenised, found, name ▸ constantAt?_name c after, place, ?_⟩
  cases encodable : (before ++ rest).isEncodable with
  | true => simp [read, visible, encodable, stopped, place]
  | false => simp [read, visible, encodable]

def manyNames : Text :=
  "\x7b\"NaN \\\" -Infinity \\\\\": [\"\\\\\\\"NaN\", -0.5e-3,\n\t\"\\u0022\", -Infinity, \"\"], \"x\": NaN\x7d"

theorem stopsAt_manyNames : ∃ rest, decode strict manyNames = .error ⟨.constant .negativeInfinity, rest⟩ ∧
    ∃ before, StopsAt manyNames .negativeInfinity before rest := by
  have stopped : decode strict manyNames =
      .error ⟨.constant .negativeInfinity, "-Infinity, \"\"], \"x\": NaN\x7d"⟩ := by
    rw [decode, if_neg (by decide)]
    cbv
  exact ⟨_, stopped, stopsAt_of_decode stopped⟩

end JsonShape.Json
