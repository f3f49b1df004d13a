import JsonShape.Naming.Allocator
import Mathlib.Data.List.Basic

/-! Names do not depend on how words are set apart.

The words of a key are what remains when an underscore is put into every hump and the text is split at the
separators. What stands before a separator has no part in the words behind it, so the Pascal case of a key is
that of its pieces one after another, and keys that set the same words apart in different ways have the same
base name.
-/

set_option autoImplicit false

namespace JsonShape

namespace CodePoint

variable {c : CodePoint}

theorem isSeparator_iff : c.isSeparator ↔ c = '_' ∨ c.isAlphanumeric = false := by
  rw [isSeparator, Bool.not_eq_true']
  constructor
  · exact .inr
  · rintro (rfl | other)
    · decide
    · exact other

theorem isAlphanumeric_of_isAsciiLetter (letter : c.isAsciiLetter) : c.isAlphanumeric := by
  have small : c.val < 0x80 := by
    simp only [isAsciiLetter, isAsciiLower, isAsciiUpper, Bool.or_eq_true, Bool.and_eq_true,
      decide_eq_true_eq] at letter
    omega
  rw [isAlphanumeric, if_pos small, letter, Bool.true_or]

theorem not_letter_of_isSeparator (separates : c.isSeparator) :
    c.isAsciiLower = false ∧ c.isAsciiUpper = false := by
  rw [isSeparator, Bool.not_eq_true'] at separates
  have noLetter : c.isAsciiLetter = false := by
    by_contra letter
    rw [isAlphanumeric_of_isAsciiLetter (Bool.not_eq_false _ ▸ letter)] at separates
    cases separates
  rwa [isAsciiLetter, Bool.or_eq_false_iff] at noLetter

end CodePoint

namespace Text

/-! ## Humps as separators -/

/-- The text with an underscore in every hump; `afterLower` tells whether a lower-case ASCII letter stands
before it. -/
def spacedFrom (afterLower : Bool) : Text → Text
  | [] => []
  | c :: rest =>
    if c.isAsciiUpper && afterLower then CodePoint.ofChar '_' :: c :: spacedFrom c.isAsciiLower rest
    else c :: spacedFrom c.isAsciiLower rest

def spaced (t : Text) : Text := spacedFrom false t

def parts (t : Text) : List Text := (t.splitOnP CodePoint.isSeparator).filter (!·.isEmpty)

theorem parts_append {s : CodePoint} (separates : s.isSeparator) (t u : Text) :
    parts (t ++ s :: u) = parts t ++ parts u := by
  rw [parts, List.splitOnP_append_cons t u separates, List.filter_append]
  rfl

theorem parts_of_letters {t : Text} (letters : ∀ c ∈ t, c.isSeparator = false) :
    parts t = [t].filter (!·.isEmpty) := by
  rw [parts, List.splitOnP_eq_singleton letters]

/-- No hump reaches over a separator. -/
theorem spacedFrom_append {s : CodePoint} (separates : s.isSeparator) (afterLower : Bool) (t u : Text) :
    spacedFrom afterLower (t ++ s :: u) = spacedFrom afterLower t ++ s :: spaced u := by
  obtain ⟨notLower, notUpper⟩ := CodePoint.not_letter_of_isSeparator separates
  induction t generalizing afterLower with
  | nil => simp [spacedFrom, spaced, notLower, notUpper]
  | cons c rest ih =>
    rw [List.cons_append, spacedFrom, spacedFrom, ih]
    split <;> rfl

end Text

namespace Splitting

variable {s : Splitting} {c : CodePoint}

def Unbroken (s : Splitting) : Prop := ∀ c ∈ s.letters, c.isSeparator = false

theorem Unbroken.reverse (unbroken : s.Unbroken) : ∀ c ∈ s.letters.reverse, c.isSeparator = false :=
  fun c member => unbroken c (List.mem_reverse.1 member)

theorem close_letters (s : Splitting) : s.close.letters = [] := by
  rw [close]
  split
  · next none => exact List.isEmpty_iff.1 none
  · rfl

theorem Unbroken.close (s : Splitting) : s.close.Unbroken := by
  rw [Unbroken, close_letters]
  exact List.forall_mem_nil _

theorem Unbroken.add (unbroken : s.Unbroken) (inWord : c.isSeparator = false) : (s.add c).Unbroken :=
  List.forall_mem_cons.2 ⟨inWord, unbroken⟩

theorem Unbroken.next (unbroken : s.Unbroken) (c : CodePoint) : (s.next c).Unbroken := by
  rw [Splitting.next]
  split
  · exact .close s
  · next inWord =>
    rw [Bool.not_eq_true] at inWord
    split
    · exact .add (.close s) inWord
    · exact unbroken.add inWord

theorem close_words (unbroken : s.Unbroken) :
    s.close.words.reverse = s.words.reverse ++ Text.parts s.letters.reverse := by
  rw [Text.parts_of_letters unbroken.reverse, close]
  cases none : s.letters.isEmpty <;> simp [none]

def found (s : Splitting) (rest : Text) : List Text :=
  s.words.reverse ++
    Text.parts (s.letters.reverse ++ Text.spacedFrom (s.letters.head?.any CodePoint.isAsciiLower) rest)

theorem close_append (unbroken : s.Unbroken) {d : CodePoint} (separates : d.isSeparator) (later : Text) :
    s.close.words.reverse ++ Text.parts later =
      s.words.reverse ++ Text.parts (s.letters.reverse ++ d :: later) := by
  rw [close_words unbroken, Text.parts_append separates, List.append_assoc]

/-- A step of the pass changes nothing in what is found. -/
theorem found_next (unbroken : s.Unbroken) (c : CodePoint) (rest : Text) :
    (s.next c).found rest = s.found (c :: rest) := by
  rw [next]
  split
  · next separates =>
    have here := Text.spacedFrom_append separates (s.letters.head?.any CodePoint.isAsciiLower) [] rest
    rw [List.nil_append, Text.spacedFrom, List.nil_append] at here
    rw [found, found, here, close_letters, ← close_append unbroken separates]
    rfl
  · split
    · next hump =>
      have underscore : (CodePoint.ofChar '_').isSeparator := by decide
      rw [humpBefore] at hump
      rw [found, found, Text.spacedFrom, if_pos hump, ← close_append unbroken underscore, add, close_letters]
      rfl
    · next noHump =>
      rw [humpBefore] at noHump
      rw [found, found, Text.spacedFrom, if_neg noHump, add, List.reverse_cons, List.append_assoc]
      rfl

theorem finish_foldl (unbroken : s.Unbroken) (t : Text) : (t.foldl next s).finish = s.found t := by
  induction t generalizing s with
  | nil =>
    rw [found, Text.spacedFrom, List.append_nil]
    exact close_words unbroken
  | cons c rest ih => rw [List.foldl_cons, ih (unbroken.next c), found_next unbroken]

end Splitting

namespace Text

/-! ## Pieces between separators -/

theorem words_eq_parts (t : Text) : t.words = t.spaced.parts :=
  Splitting.finish_foldl (s := Splitting.start) (List.forall_mem_nil _) t

theorem words_append {s : CodePoint} (separates : s.isSeparator) (t u : Text) :
    words (t ++ s :: u) = words t ++ words u := by
  simp only [words_eq_parts, spaced, spacedFrom_append separates, parts_append separates]

theorem pascal_append {s : CodePoint} (separates : s.isSeparator) (t u : Text) :
    pascal (t ++ s :: u) = pascal t ++ pascal u := by
  rw [pascal, words_append separates, List.flatMap_append, pascal, pascal]

/-- Texts with separators between neighbours, at least one in each place and any of them. -/
inductive Joins : List Text → Text → Prop where
  | none : Joins [] []
  | single (t : Text) : Joins [t] t
  | more (t : Text) {gap joined next : Text} {rest : List Text} (some : gap ≠ [])
      (separate : ∀ c ∈ gap, c = '_' ∨ c.isAlphanumeric = false) (later : Joins (next :: rest) joined) :
      Joins (t :: next :: rest) (t ++ gap ++ joined)

theorem pascal_gap {gap : Text} (separate : ∀ c ∈ gap, c.isSeparator) (t : Text) :
    pascal (gap ++ t) = pascal t := by
  induction gap with
  | nil => rfl
  | cons s rest ih =>
    rw [List.forall_mem_cons] at separate
    rw [← List.nil_append (s :: rest ++ t), List.cons_append, pascal_append separate.1, ih separate.2]
    rfl

/-- The Pascal case of joined texts is that of each, one after another. -/
theorem Joins.pascal {keys : List Text} {joined : Text} (joins : Joins keys joined) :
    joined.pascal = keys.flatMap Text.pascal := by
  induction joins with
  | none => rfl
  | single t => rw [List.flatMap_singleton]
  | more t some separate _ ih =>
    have separates := fun c member => CodePoint.isSeparator_iff.2 (separate c member)
    obtain ⟨s, gap, rfl⟩ := List.exists_cons_of_ne_nil some
    rw [List.forall_mem_cons] at separates
    rw [List.append_assoc, List.cons_append, pascal_append separates.1, pascal_gap separates.2, ih]
    rfl

theorem joins_joined {s : CodePoint} (separates : s = '_' ∨ s.isAlphanumeric = false) (parts : List Text) :
    Joins parts (joined [s] parts) := by
  induction parts with
  | nil => exact .none
  | cons t rest ih =>
    cases rest with
    | nil => rw [joined, List.intercalate_singleton]; exact .single t
    | cons next rest =>
      rw [joined, List.intercalate_cons_cons]
      exact .more t (List.cons_ne_nil s []) (List.forall_mem_singleton.2 separates) ih

end Text

namespace Allocator

def wordSeparators : Text := ['_', '-', '.', ' ']

structure SpellsWords (a : Allocator) : Prop where
  /-- A separator can be taken out wherever it stands. -/
  apart : ∀ (t u : Text) (s : CodePoint), s = '_' ∨ s.isAlphanumeric = false →
    Text.pascal (t ++ s :: u) = Text.pascal t ++ Text.pascal u
  /-- Keys joined by separators are spelled as one key, with the root name for what spells nothing and an
  underscore in front of a digit. -/
  base : ∀ keys joined, Text.Joins keys joined →
    a.baseName keys = guarded (if joined.pascal = [] then a.rootName else joined.pascal)
  /-- The same words with any of the common separators have the same base name, on any path. -/
  forms : ∀ words : List Text, ∀ s ∈ wordSeparators, ∀ s' ∈ wordSeparators, ∀ outer inner : List Text,
    a.baseName (outer ++ Text.joined [s] words :: inner) =
      a.baseName (outer ++ Text.joined [s'] words :: inner)

theorem spellsWords (a : Allocator) : a.SpellsWords where
  apart t u s separates := Text.pascal_append (CodePoint.isSeparator_iff.2 separates) t u
  base keys joined joins := by
    simp only [baseName, ← joins.pascal, List.isEmpty_iff]
  forms words s among s' among' outer inner := by
    have separates : ∀ s ∈ wordSeparators, s = '_' ∨ s.isAlphanumeric = false := by decide
    have first := (Text.joins_joined (separates s among) words).pascal
    have second := (Text.joins_joined (separates s' among') words).pascal
    simp only [baseName, List.flatMap_append, List.flatMap_cons, first, second]

/-- The Pascal case alone is no base name if it starts with a digit or is empty. -/
theorem baseName_ne_pascal :
    (Text.Joins ["2fa", "codes"] "2fa_codes" ∧ Text.pascal "2fa_codes" = "2faCodes" ∧
      (empty "Root").baseName ["2fa", "codes"] = "_2faCodes") ∧
    (Text.Joins ["-"] "-" ∧ Text.pascal "-" = [] ∧ (empty "Root").baseName ["-"] = "Root") ∧
    ¬ ∀ keys joined, Text.Joins keys joined → (empty "Root").baseName keys = joined.pascal := by
  have codes : Text.Joins ["2fa", "codes"] "2fa_codes" := Text.joins_joined (.inl rfl) ["2fa", "codes"]
  refine ⟨⟨codes, by decide, by decide⟩, ⟨.single _, by decide, by decide⟩, fun all => ?_⟩
  exact absurd (all _ _ codes) (by decide)

end Allocator

end JsonShape
