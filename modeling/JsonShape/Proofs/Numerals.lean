import JsonShape.Json.Numeral
import JsonShape.Proofs.Grammar
import Mathlib.Data.List.TakeWhile

/-! Scanning numerals.

Each part of a numeral that is scanned is spelled by what was taken off the text. The other way around, a
part is scanned as it is spelled if what follows cannot lengthen it, and nothing that may follow a value
lengthens a numeral.
-/

set_option autoImplicit false

namespace JsonShape.Json

@[simp] theorem digitValue_figure (d : Digit) : digitValue (figure d) = d := by
  ext
  simp [digitValue, figure, Digit.last]

@[simp] theorem isAsciiDigit_figure (d : Digit) : (figure d).isAsciiDigit := by
  have small : 0x30 + d.val ≤ 0x39 := by omega
  rw [CodePoint.isAsciiDigit, figure, decide_eq_true small]
  simp

theorem figure_digitValue {c : CodePoint} (isDigit : c.isAsciiDigit) : figure (digitValue c) = c := by
  simp only [CodePoint.isAsciiDigit, Bool.and_eq_true, decide_eq_true_eq] at isDigit
  apply CodePoint.ext_val
  simp only [figure, digitValue, Digit.last]
  omega

/-- The code points that may follow a value, and with it a whole numeral. -/
def valueEnds : Text := [' ', '\t', '\n', '\r', ',', ']', '\x7d']

def fractionEnds : Text := 'e' :: 'E' :: valueEnds

def wholeEnds : Text := '.' :: fractionEnds

def StartsIn (ends t : Text) : Prop := ∀ c ∈ t.head?, c ∈ ends

theorem StartsIn.mono {ends more t : Text} (starts : StartsIn ends t) (within : ends ⊆ more) :
    StartsIn more t := fun c head => within (starts c head)

theorem startsIn_cons {ends : Text} {c : CodePoint} (member : c ∈ ends) (t : Text) :
    StartsIn ends (c :: t) := by
  intro d head
  cases head
  exact member

theorem scanDigits_figures (digits : List Digit) {rest : Text} (stops : StartsIn wholeEnds rest) :
    scanDigits (figures digits ++ rest) = (digits, rest) := by
  have all : ∀ c ∈ figures digits, c.isAsciiDigit := by simp [figures]
  have noDigit : ∀ c ∈ wholeEnds, c.isAsciiDigit = false := by decide
  have taken : rest.takeWhile CodePoint.isAsciiDigit = [] := by
    cases rest with
    | nil => rfl
    | cons c rest => rw [List.takeWhile_cons, noDigit c (stops c rfl)]; rfl
  have dropped : rest.dropWhile CodePoint.isAsciiDigit = rest := by
    cases rest with
    | nil => rfl
    | cons c rest => rw [List.dropWhile_cons, noDigit c (stops c rfl)]; rfl
  rw [scanDigits, List.takeWhile_append_of_pos all, List.dropWhile_append_of_pos all, taken, dropped]
  simp [figures, Function.comp_def]

theorem eq_of_scanDigits {t rest : Text} {digits : List Digit}
    (scanned : scanDigits t = (digits, rest)) : t = figures digits ++ rest := by
  cases scanned
  have figured : figures ((t.takeWhile CodePoint.isAsciiDigit).map digitValue) =
      t.takeWhile CodePoint.isAsciiDigit := by
    rw [figures, List.map_map]
    exact (List.map_congr_left fun c member => figure_digitValue (List.mem_takeWhile_imp member)).trans
      (List.map_id _)
  rw [figured, List.takeWhile_append_dropWhile]

theorem figure_zero : figure 0 = '0' := rfl

theorem figure_ne_zero {d : Digit} (nonzero : d ≠ 0) : figure d ≠ '0' := by
  rw [← figure_zero]
  intro same
  exact nonzero (by simpa using congrArg digitValue same)

theorem scanWhole?_figures {whole : List Digit} {rest : Text} (isWhole : IsWhole whole)
    (stops : StartsIn wholeEnds rest) : scanWhole? (figures whole ++ rest) = some (whole, rest) := by
  cases isWhole with
  | zero => rfl
  | @digits d tail nonzero =>
    have scanned := scanDigits_figures (d :: tail) stops
    rw [figures, List.map_cons, List.cons_append] at scanned ⊢
    rw [scanWhole?, if_neg (figure_ne_zero nonzero), if_pos (isAsciiDigit_figure _), scanned]

theorem whole_of_scan {t rest : Text} {whole : List Digit}
    (scanned : scanWhole? t = some (whole, rest)) : IsWhole whole ∧ t = figures whole ++ rest := by
  unfold scanWhole? at scanned
  split at scanned
  · cases scanned
  · next c tail =>
    split at scanned
    · next zero => cases scanned; cases zero; exact ⟨.zero, rfl⟩
    · next notZero =>
      split at scanned
      · next isDigit =>
        have parts := eq_of_scanDigits (Option.some.inj scanned)
        refine ⟨?_, parts⟩
        cases whole with
        | nil =>
          -- the first figure is a digit, so some digit was taken
          have first := congrArg Prod.fst (Option.some.inj scanned)
          rw [scanDigits, List.takeWhile_cons, if_pos isDigit] at first
          cases first
        | cons d whole =>
          refine .digits fun zero => notZero ?_
          rw [zero] at parts
          exact (List.cons.inj parts).1
      · cases scanned

theorem scanFraction_spelled {fraction : List Digit} {afterPoint rest : Text}
    (spelled : SpellsFraction fraction afterPoint) (stops : StartsIn fractionEnds rest) :
    scanFraction (afterPoint ++ rest) = (fraction, rest) := by
  cases spelled with
  | absent =>
    cases rest with
    | nil => rfl
    | cons c tail =>
      have noPoint : ∀ c ∈ fractionEnds, c ≠ '.' := by decide
      rw [List.nil_append, scanFraction, if_neg (noPoint c (stops c rfl))]
  | digits some =>
    rw [List.cons_append, scanFraction, if_pos rfl,
      scanDigits_figures _ (stops.mono (by decide))]
    split
    · next none => cases none; exact absurd rfl some
    · next same => cases same; rfl

theorem fraction_of_scan (t : Text) :
    ∃ afterPoint, SpellsFraction (scanFraction t).1 afterPoint ∧
      t = afterPoint ++ (scanFraction t).2 := by
  unfold scanFraction
  split
  · exact ⟨[], .absent, rfl⟩
  · next c tail =>
    split
    · next point =>
      split
      · exact ⟨[], .absent, rfl⟩
      · next some found =>
        refine ⟨_, .digits some, ?_⟩
        rw [point, eq_of_scanDigits found, List.cons_append]
    · exact ⟨[], .absent, rfl⟩

theorem figure_ne {d : Digit} {c : CodePoint} (noDigit : c.isAsciiDigit = false) : figure d ≠ c := by
  rintro rfl
  exact Bool.false_ne_true (noDigit.symm.trans (isAsciiDigit_figure d))

theorem scanSign_spelled {negative : Bool} {sign : Text} {digits : List Digit} {rest : Text}
    (spelled : SpellsSign negative sign) (some : digits ≠ []) :
    scanSign (sign ++ (figures digits ++ rest)) = (negative, figures digits ++ rest) := by
  cases spelled with
  | absent =>
    obtain ⟨d, digits, rfl⟩ := List.exists_cons_of_ne_nil some
    rw [List.nil_append, figures, List.map_cons, List.cons_append, scanSign,
      if_neg (figure_ne (by decide)), if_neg (figure_ne (by decide))]
  | plus => rfl
  | minus => rfl

theorem sign_of_scan (t : Text) :
    ∃ sign, SpellsSign (scanSign t).1 sign ∧ t = sign ++ (scanSign t).2 := by
  unfold scanSign
  split
  · exact ⟨[], .absent, rfl⟩
  · next c rest =>
    split
    · next isMinus => exact ⟨_, .minus, by rw [isMinus]; rfl⟩
    · split
      · next isPlus => exact ⟨_, .plus, by rw [isPlus]; rfl⟩
      · exact ⟨[], .absent, rfl⟩

theorem scanExponent_spelled {negative : Bool} {exponent : List Digit} {afterLetter rest : Text}
    (spelled : SpellsExponent negative exponent afterLetter) (stops : StartsIn valueEnds rest) :
    scanExponent (afterLetter ++ rest) = (negative, exponent, rest) := by
  cases spelled with
  | absent =>
    cases rest with
    | nil => rfl
    | cons c tail =>
      have noLetter : ∀ c ∈ valueEnds, ¬ (c = 'e' ∨ c = 'E') := by decide
      rw [List.nil_append, scanExponent, if_neg (noLetter c (stops c rfl))]
  | digits isLetter signed some =>
    rw [List.cons_append, scanExponent, if_pos isLetter, List.append_assoc,
      scanSign_spelled signed some, scanDigits_figures _ (stops.mono (by decide))]
    split
    · next none => cases none; exact absurd rfl some
    · next same => cases same; rfl

theorem exponent_of_scan (t : Text) :
    ∃ afterLetter, SpellsExponent (scanExponent t).1 (scanExponent t).2.1 afterLetter ∧
      t = afterLetter ++ (scanExponent t).2.2 := by
  unfold scanExponent
  split
  · exact ⟨[], .absent, rfl⟩
  · next c tail =>
    split
    · next isLetter =>
      obtain ⟨sign, signed, parts⟩ := sign_of_scan tail
      split
      · exact ⟨[], .absent, rfl⟩
      · next some found =>
        refine ⟨_, .digits isLetter signed some, ?_⟩
        rw [List.cons_append, List.append_assoc, ← eq_of_scanDigits found, ← parts]
    · exact ⟨[], .absent, rfl⟩

theorem scanMinus_spelled {negative : Bool} {whole : List Digit} {rest : Text}
    (some : whole ≠ []) :
    scanMinus (minus negative ++ (figures whole ++ rest)) = (negative, figures whole ++ rest) := by
  cases negative with
  | true => rfl
  | false =>
    obtain ⟨d, whole, rfl⟩ := List.exists_cons_of_ne_nil some
    rw [minus, if_neg Bool.false_ne_true, List.nil_append, figures, List.map_cons, List.cons_append,
      scanMinus, if_neg (figure_ne (by decide))]

theorem minus_of_scan (t : Text) : t = minus (scanMinus t).1 ++ (scanMinus t).2 := by
  unfold scanMinus
  split
  · rfl
  · split
    · next isMinus => rw [isMinus]; rfl
    · rfl

/-- A numeral ends where a value may end. -/
theorem scanNumeral?_spelled {n : Numeral} {t rest : Text} (spelled : SpellsNumeral n t)
    (ended : StartsIn valueEnds rest) : scanNumeral? (t ++ rest) = some (n, rest) := by
  obtain @⟨negative, exponentNegative, whole, fraction, exponent, afterPoint, afterLetter, isWhole,
    isFraction, isExponent⟩ := spelled
  have digits : whole ≠ [] := by cases isWhole <;> exact List.cons_ne_nil _ _
  have afterFraction : StartsIn fractionEnds (afterLetter ++ rest) := by
    cases isExponent with
    | absent => exact ended.mono (by decide)
    | digits isLetter signed some =>
      refine startsIn_cons ?_ _
      rcases isLetter with rfl | rfl <;> decide
  have afterWhole : StartsIn wholeEnds (afterPoint ++ (afterLetter ++ rest)) := by
    cases isFraction with
    | absent => exact afterFraction.mono (by decide)
    | digits some => exact startsIn_cons (by decide) _
  rw [List.append_assoc, List.append_assoc, List.append_assoc, scanNumeral?,
    scanMinus_spelled digits, scanWhole?_figures isWhole afterWhole]
  simp [scanFraction_spelled isFraction afterFraction, scanExponent_spelled isExponent ended]

theorem numeral_of_scan {n : Numeral} {t rest : Text} (scanned : scanNumeral? t = some (n, rest)) :
    ∃ text, SpellsNumeral n text ∧ t = text ++ rest := by
  simp only [scanNumeral?, Option.bind_eq_bind, Option.bind_eq_some_iff, Option.some.injEq,
    Prod.mk.injEq] at scanned
  obtain ⟨⟨whole, afterWhole⟩, first, rfl, rfl⟩ := scanned
  obtain ⟨isWhole, parts⟩ := whole_of_scan first
  obtain ⟨afterPoint, isFraction, fractionParts⟩ := fraction_of_scan afterWhole
  obtain ⟨afterLetter, isExponent, exponentParts⟩ := exponent_of_scan (scanFraction afterWhole).2
  refine ⟨_, .parts isWhole isFraction isExponent, ?_⟩
  rw [List.append_assoc, List.append_assoc, List.append_assoc, ← exponentParts, ← fractionParts, ← parts]
  exact minus_of_scan t

end JsonShape.Json
