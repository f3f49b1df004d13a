import JsonShape.Proofs.Numerals
import JsonShape.Proofs.Walk

/-! The grammar of dates.

What a date is, said without a matcher. Each rule puts a text together from its parts, and nothing stands
before, between or after them. Taking the parts off one by one needs no second try: whatever is optional
starts with a code point that cannot come next without it.
-/

set_option autoImplicit false

namespace JsonShape

open Json (Digit StartsIn digitValue figure separated)

namespace Date

/-! ## The grammar -/

inductive Digits : Nat → Text → Prop where
  | none : Digits 0 []
  | more {n : Nat} {t : Text} (d : Digit) (others : Digits n t) : Digits (n + 1) (figure d :: t)

inductive Day : Text → Prop where
  | dashed {year month day : Text} (isYear : Digits 4 year) (isMonth : Digits 2 month)
      (isDay : Digits 2 day) : Day (separated year '-' (separated month '-' day))

inductive Fraction : Text → Prop where
  | absent : Fraction []
  | digits {n : Nat} {t : Text} (some : Digits (n + 1) t) : Fraction ('.' :: t)

inductive Seconds : Text → Prop where
  | absent : Seconds []
  | whole {seconds fraction : Text} (isSeconds : Digits 2 seconds) (isFraction : Fraction fraction) :
      Seconds (':' :: (seconds ++ fraction))

inductive Zone : Text → Prop where
  | absent : Zone []
  | coordinated : Zone ['Z']
  | offset {sign : CodePoint} {hours colon minutes : Text} (isSign : sign = '+' ∨ sign = '-')
      (isHours : Digits 2 hours) (isColon : colon = [] ∨ colon = [CodePoint.ofChar ':'])
      (isMinutes : Digits 2 minutes) : Zone (sign :: (hours ++ (colon ++ minutes)))

inductive Time : Text → Prop where
  | clock {hours minutes seconds zone : Text} (isHours : Digits 2 hours) (isMinutes : Digits 2 minutes)
      (isSeconds : Seconds seconds) (isZone : Zone zone) :
      Time ('T' :: separated hours ':' (minutes ++ (seconds ++ zone)))

/-- A day alone or with a time of day. -/
inductive Spelled : Text → Prop where
  | day {day : Text} (isDay : Day day) : Spelled day
  | moment {day time : Text} (isDay : Day day) (isTime : Time time) : Spelled (day ++ time)

/-! ## Digits and marks -/

theorem digits_takeWhile (t : Text) :
    Digits (t.takeWhile CodePoint.isAsciiDigit).length (t.takeWhile CodePoint.isAsciiDigit) := by
  induction t with
  | nil => exact .none
  | cons c t ih =>
    by_cases digit : c.isAsciiDigit
    · rw [List.takeWhile_cons_of_pos digit, List.length_cons]
      have first := Digits.more (digitValue c) ih
      rwa [Json.figure_digitValue digit] at first
    · rw [List.takeWhile_cons_of_neg digit]
      exact .none

theorem Digits.all {n : Nat} {t : Text} (digits : Digits n t) : ∀ c ∈ t, c.isAsciiDigit := by
  induction digits with
  | none => exact List.forall_mem_nil _
  | more d others ih => exact List.forall_mem_cons.2 ⟨Json.isAsciiDigit_figure d, ih⟩

def digitPoints : Text := (List.finRange 10).map figure

theorem Digits.startsIn {n : Nat} {t : Text} (digits : Digits n t) : StartsIn digitPoints t := by
  cases digits with
  | none => exact nofun
  | more d others => exact Json.startsIn_cons (List.mem_map_of_mem (List.mem_finRange d)) _

theorem afterDigits?_eq_some {n : Nat} {t rest : Text} :
    afterDigits? n t = some rest ↔ ∃ front, Digits n front ∧ t = front ++ rest := by
  constructor
  · intro found
    fun_induction afterDigits? n t with
    | case1 t => cases found; exact ⟨[], .none, rfl⟩
    | case2 => cases found
    | case3 n c t digit ih =>
      obtain ⟨front, digits, rfl⟩ := ih found
      refine ⟨c :: front, ?_, rfl⟩
      rw [← Json.figure_digitValue digit]
      exact .more _ digits
    | case4 => cases found
  · rintro ⟨front, digits, rfl⟩
    induction digits with
    | none => rfl
    | more d others ih => rwa [List.cons_append, afterDigits?, if_pos (Json.isAsciiDigit_figure d)]

theorem afterMark?_eq_some {mark : CodePoint} {t rest : Text} :
    afterMark? mark t = some rest ↔ t = mark :: rest := by
  cases t with
  | nil => simp [afterMark?]
  | cons c t => simp [afterMark?]

theorem afterMark?_of_startsIn {ends t : Text} {mark : CodePoint} (starts : StartsIn ends t)
    (other : mark ∉ ends) : afterMark? mark t = none := by
  apply Option.eq_none_iff_forall_not_mem.2
  intro rest found
  rw [Option.mem_def, afterMark?_eq_some] at found
  subst found
  exact other (starts mark rfl)

/-! ## The matcher -/

theorem afterDay?_eq_some {t rest : Text} :
    afterDay? t = some rest ↔ ∃ front, Day front ∧ t = front ++ rest := by
  simp only [afterDay?, Option.bind_eq_bind, Option.bind_eq_some_iff, afterDigits?_eq_some,
    afterMark?_eq_some]
  constructor
  · rintro ⟨_, ⟨year, isYear, rfl⟩, _, rfl, _, ⟨month, isMonth, rfl⟩, _, rfl, day, isDay, rfl⟩
    exact ⟨_, .dashed isYear isMonth isDay, by simp [separated]⟩
  · rintro ⟨_, @⟨year, month, day, isYear, isMonth, isDay⟩, rfl⟩
    refine ⟨_, ⟨year, isYear, List.append_assoc ..⟩, separated month '-' day ++ rest, rfl, ?_⟩
    exact ⟨_, ⟨month, isMonth, List.append_assoc ..⟩, day ++ rest, rfl, day, isDay, rfl⟩

theorem afterMinutes?_eq_some {t rest : Text} :
    afterMinutes? t = some rest ↔
      ∃ hours minutes, Digits 2 hours ∧ Digits 2 minutes ∧ t = separated hours ':' (minutes ++ rest) := by
  simp only [afterMinutes?, Option.bind_eq_bind, Option.bind_eq_some_iff, afterDigits?_eq_some,
    afterMark?_eq_some]
  constructor
  · rintro ⟨_, ⟨hours, isHours, rfl⟩, _, rfl, minutes, isMinutes, rfl⟩
    exact ⟨hours, minutes, isHours, isMinutes, rfl⟩
  · rintro ⟨hours, minutes, isHours, isMinutes, rfl⟩
    exact ⟨_, ⟨hours, isHours, rfl⟩, _, rfl, minutes, isMinutes, rfl⟩

def zoneStarts : Text := ['Z', '+', '-']

theorem Zone.startsIn {t : Text} (zone : Zone t) : StartsIn zoneStarts t := by
  cases zone with
  | absent => exact nofun
  | coordinated => exact Json.startsIn_cons (by decide) _
  | offset isSign =>
    rcases isSign with rfl | rfl
    · exact Json.startsIn_cons (by decide) _
    · exact Json.startsIn_cons (by decide) _

theorem fraction_of_afterFraction? {t rest : Text} (found : afterFraction? t = some rest) :
    ∃ front, Fraction front ∧ t = front ++ rest := by
  unfold afterFraction? at found
  split at found
  · cases found
    exact ⟨[], .absent, rfl⟩
  · next after point =>
    rw [afterMark?_eq_some] at point
    simp only [Option.bind_eq_bind, Option.bind_eq_some_iff, afterDigits?_eq_some] at found
    obtain ⟨more, ⟨first, one, rfl⟩, found⟩ := found
    cases found
    -- the point asks for one digit, and all that follow it belong to the fraction
    cases one with
    | more d others =>
      cases others
      refine ⟨_, .digits (.more d (digits_takeWhile more)), ?_⟩
      simp [point]

theorem afterFraction?_append {front rest : Text} (fraction : Fraction front)
    (stops : StartsIn zoneStarts rest) : afterFraction? (front ++ rest) = some rest := by
  unfold afterFraction?
  cases fraction with
  | absent => rw [List.nil_append, afterMark?_of_startsIn stops (by decide)]
  | digits some =>
    cases some with
    | @more _ t d others =>
      have noDigit : ∀ c ∈ zoneStarts, c.isAsciiDigit = false := by decide
      -- a zone starts with no digit, so the fraction ends where it should
      have dropped : rest.dropWhile CodePoint.isAsciiDigit = rest := by
        cases rest with
        | nil => rfl
        | cons c rest => rw [List.dropWhile_cons, noDigit c (stops c rfl)]; rfl
      have first : afterDigits? 1 (figure d :: (t ++ rest)) = .some (t ++ rest) :=
        afterDigits?_eq_some.2 ⟨[figure d], .more d .none, rfl⟩
      rw [List.cons_append, afterMark?_eq_some.2 rfl]
      dsimp only
      rw [List.cons_append, first]
      change Option.some _ = _
      rw [List.dropWhile_append_of_pos others.all, dropped]

theorem seconds_of_afterSeconds? {t rest : Text} (found : afterSeconds? t = some rest) :
    ∃ front, Seconds front ∧ t = front ++ rest := by
  unfold afterSeconds? at found
  split at found
  · cases found
    exact ⟨[], .absent, rfl⟩
  · next after colon =>
    rw [afterMark?_eq_some] at colon
    simp only [Option.bind_eq_bind, Option.bind_eq_some_iff, afterDigits?_eq_some] at found
    obtain ⟨_, ⟨seconds, isSeconds, rfl⟩, found⟩ := found
    obtain ⟨fraction, isFraction, rfl⟩ := fraction_of_afterFraction? found
    exact ⟨_, .whole isSeconds isFraction, by rw [colon]; simp⟩

theorem afterSeconds?_append {front rest : Text} (seconds : Seconds front)
    (stops : StartsIn zoneStarts rest) : afterSeconds? (front ++ rest) = some rest := by
  unfold afterSeconds?
  cases seconds with
  | absent => rw [List.nil_append, afterMark?_of_startsIn stops (by decide)]
  | whole isSeconds isFraction =>
    rw [List.cons_append, afterMark?_eq_some.2 rfl]
    dsimp only
    rw [List.append_assoc, afterDigits?_eq_some.2 ⟨_, isSeconds, rfl⟩]
    exact afterFraction?_append isFraction stops

theorem afterOffset?_eq_nil {t : Text} :
    afterOffset? t = some [] ↔
      ∃ hours colon minutes, Digits 2 hours ∧ (colon = [] ∨ colon = [CodePoint.ofChar ':']) ∧
        Digits 2 minutes ∧ t = hours ++ (colon ++ minutes) := by
  simp only [afterOffset?, Option.bind_eq_bind, Option.bind_eq_some_iff, afterDigits?_eq_some,
    List.append_nil]
  constructor
  · rintro ⟨after, ⟨hours, isHours, rfl⟩, minutes, isMinutes, same⟩
    cases colon : afterMark? ':' after with
    | none =>
      rw [colon, Option.getD_none] at same
      exact ⟨hours, [], minutes, isHours, .inl rfl, isMinutes, by rw [same, List.nil_append]⟩
    | some rest =>
      rw [colon, Option.getD_some] at same
      rw [afterMark?_eq_some] at colon
      exact ⟨hours, [CodePoint.ofChar ':'], minutes, isHours, .inr rfl, isMinutes, by rw [colon, same]; rfl⟩
  · rintro ⟨hours, colon, minutes, isHours, isColon, isMinutes, rfl⟩
    refine ⟨_, ⟨hours, isHours, rfl⟩, minutes, isMinutes, ?_⟩
    -- without a colon there are digits, which are not taken for one
    rcases isColon with rfl | rfl
    · rw [List.nil_append, afterMark?_of_startsIn isMinutes.startsIn (by decide), Option.getD_none]
    · rw [List.singleton_append, afterMark?_eq_some.2 rfl, Option.getD_some]

theorem isZone_iff {t : Text} : isZone t ↔ Zone t := by
  constructor
  · intro found
    unfold isZone at found
    split at found
    · exact .absent
    · next c rest =>
      split at found
      · next isZ =>
        rw [isZ, List.isEmpty_iff.1 found]
        exact .coordinated
      · split at found
        · next isSign =>
          obtain ⟨hours, colon, minutes, isHours, isColon, isMinutes, rfl⟩ :=
            afterOffset?_eq_nil.1 (of_decide_eq_true found)
          exact .offset isSign isHours isColon isMinutes
        · cases found
  · intro zone
    cases zone with
    | absent => rfl
    | coordinated => rfl
    | offset isSign isHours isColon isMinutes =>
      have notZ : ∀ sign : CodePoint, sign = '+' ∨ sign = '-' → sign ≠ CodePoint.ofChar 'Z' := by
        rintro _ (rfl | rfl) <;> decide
      rw [isZone, if_neg (notZ _ isSign), if_pos isSign, decide_eq_true_iff]
      exact afterOffset?_eq_nil.2 ⟨_, _, _, isHours, isColon, isMinutes, rfl⟩

theorem isTime_iff {t : Text} : isTime t ↔ Time t := by
  simp only [isTime, Option.bind_eq_bind, Option.any_eq_true, Option.bind_eq_some_iff, afterMark?_eq_some,
    afterMinutes?_eq_some, isZone_iff]
  constructor
  · rintro ⟨zone, ⟨_, rfl, _, ⟨hours, minutes, isHours, isMinutes, rfl⟩, found⟩, isZone⟩
    obtain ⟨seconds, isSeconds, rfl⟩ := seconds_of_afterSeconds? found
    exact .clock isHours isMinutes isSeconds isZone
  · rintro ⟨isHours, isMinutes, isSeconds, isZone⟩
    exact ⟨_, ⟨_, rfl, _, ⟨_, _, isHours, isMinutes, rfl⟩, afterSeconds?_append isSeconds isZone.startsIn⟩,
      isZone⟩

end Date

/-- The matcher recognises what the grammar generates. -/
theorem Text.isDate_iff {t : Text} : t.isDate ↔ Date.Spelled t := by
  simp only [Text.isDate, Option.any_eq_true, Date.afterDay?_eq_some, Bool.or_eq_true, List.isEmpty_iff,
    Date.isTime_iff]
  constructor
  · rintro ⟨rest, ⟨day, isDay, rfl⟩, rfl | isTime⟩
    · rw [List.append_nil]
      exact .day isDay
    · exact .moment isDay isTime
  · intro spelled
    cases spelled with
    | day isDay => exact ⟨[], ⟨_, isDay, (List.append_nil _).symm⟩, .inl rfl⟩
    | moment isDay isTime => exact ⟨_, ⟨_, isDay, rfl⟩, .inr isTime⟩

example : Date.Spelled "2024-01-31T10:00:00.250+0130" ∧ ¬ Date.Spelled "2024-01-31Z" ∧
    ¬ Date.Spelled "2024-01-31\n" := by
  simp only [← Text.isDate_iff]
  decide

namespace Inference

theorem inferText_shape (o : Options) (path : Path) (s : Text) (p : Progress) :
    (inferText o path s p).1 = if o.detectsDates && s.isDate then .date else .string := by
  unfold inferText
  split <;> rfl

/-- Wherever a text stands, it is found to be a date if dates are looked for and the grammar generates it, and
a string otherwise. -/
theorem date_iff_spelled (o : Options) (s : Text) :
    (∀ path p, (inferAt o path (.string s) p).1 = .date ↔ o.detectsDates ∧ Date.Spelled s) ∧
      (∀ path p, (inferAt o path (.string s) p).1 = .string ↔ ¬ (o.detectsDates ∧ Date.Spelled s)) ∧
      ((infer o (.string s)).shape = .date ↔ o.detectsDates ∧ Date.Spelled s) := by
  have dated (path : Path) (p : Progress) :
      (inferAt o path (.string s) p).1 = .date ↔ o.detectsDates ∧ Date.Spelled s := by
    rw [inferAt, inferText_shape, ← Text.isDate_iff, ← Bool.and_eq_true]
    split <;> simp_all
  refine ⟨dated, fun path p => ?_, ?_⟩
  · rw [← dated path p, inferAt, inferText_shape]
    split <;> simp
  · rw [infer_shape]
    exact dated [] _

end Inference

end JsonShape
