import JsonShape.Proofs.LegibleSchemas
import JsonShape.Proofs.SchemaNames

/-! Type names are identifiers.

The words found in an ASCII key are made of letters and digits, and changing their case keeps them so. A name
of such words is an identifier once a leading digit stands behind an underscore, and a number at its end
changes nothing. Keys that spell no word leave the root name.
-/

set_option autoImplicit false

namespace JsonShape

/-! ## Words of ASCII keys -/

namespace CodePoint

variable {c : CodePoint}

theorem isIdentifierPart_upper (part : c.isIdentifierPart) : ∀ d ∈ c.upper, d.isIdentifierPart :=
  forall_part (p := fun c => ∀ d ∈ c.upper, d.isIdentifierPart) (by decide +kernel) part

theorem isIdentifierPart_of_ascii (ascii : c.val < 0x80) (inWord : ¬ c.isSeparator) :
    c.isIdentifierPart := by
  rw [isSeparator, isAlphanumeric, if_pos ascii, Bool.not_eq_true, Bool.not_eq_false', Bool.or_eq_true]
    at inWord
  simp only [isIdentifierPart, isIdentifierStart, Bool.or_eq_true]
  tauto

end CodePoint

namespace Splitting

structure AreWords (s : Splitting) : Prop where
  words : ∀ word ∈ s.words, word.IsWord
  letters : s.letters.IsWord

variable {s : Splitting} {c : CodePoint}

theorem AreWords.close (before : s.AreWords) : s.close.AreWords := by
  rw [Splitting.close]
  split
  · exact before
  · constructor
    · have last : Text.IsWord s.letters.reverse := fun c member =>
        before.letters c (List.mem_reverse.1 member)
      exact List.forall_mem_cons.2 ⟨last, before.words⟩
    · exact List.forall_mem_nil _

theorem AreWords.add (before : s.AreWords) (part : c.isIdentifierPart) : (s.add c).AreWords where
  words := before.words
  letters := List.forall_mem_cons.2 ⟨part, before.letters⟩

theorem AreWords.next (before : s.AreWords) (ascii : c.val < 0x80) : (s.next c).AreWords := by
  rw [Splitting.next]
  split
  · exact before.close
  · next inWord =>
    have part := CodePoint.isIdentifierPart_of_ascii ascii inWord
    split
    · exact before.close.add part
    · exact before.add part

/-- The invariant of the pass over a key. -/
theorem AreWords.foldl {t : Text} (ascii : ∀ c ∈ t, c.val < 0x80) (before : s.AreWords) :
    (t.foldl Splitting.next s).AreWords := by
  induction t generalizing s with
  | nil => exact before
  | cons c rest ih =>
    rw [List.forall_mem_cons] at ascii
    exact ih ascii.2 (before.next ascii.1)

end Splitting

namespace Text

def IsAscii (t : Text) : Prop := ∀ c ∈ t, c.val < 0x80

variable {s t : Text}

theorem isWord_words (ascii : t.IsAscii) : ∀ word ∈ t.words, word.IsWord := by
  have start : Splitting.start.AreWords := ⟨List.forall_mem_nil _, List.forall_mem_nil _⟩
  have found := (start.foldl ascii).close
  exact fun word member => found.words word (List.mem_reverse.1 member)

theorem isWord_lowerFrom (word : t.IsWord) (after : Bool) : (lowerFrom after t).IsWord := by
  induction t generalizing after with
  | nil => exact List.forall_mem_nil _
  | cons c rest ih =>
    rw [isWord_cons] at word
    -- a sigma is the one letter whose lower case depends on its neighbours
    have noSigma : c.val ≠ 0x3A3 :=
      CodePoint.forall_part (p := fun c => c.val ≠ 0x3A3) (by decide +kernel) word.1
    rw [lowerFrom, if_neg noSigma]
    exact isWord_append.2 ⟨CodePoint.isIdentifierPart_lower word.1, ih word.2 _⟩

theorem isWord_capitalized (word : t.IsWord) : t.capitalized.IsWord := by
  cases t with
  | nil => exact word
  | cons c rest =>
    rw [isWord_cons] at word
    exact isWord_append.2 ⟨CodePoint.isIdentifierPart_upper word.1, isWord_lowerFrom word.2 false⟩

theorem isWord_flatMap {keys : List Text} {spell : Text → Text} (each : ∀ key ∈ keys, (spell key).IsWord) :
    IsWord (keys.flatMap spell) := by
  intro c member
  obtain ⟨key, among, letter⟩ := List.mem_flatMap.1 member
  exact each key among c letter

theorem isWord_pascal (ascii : t.IsAscii) : t.pascal.IsWord :=
  isWord_flatMap fun word member => isWord_capitalized (isWord_words ascii word member)

theorem isWord_ofNat (n : Nat) : (ofNat n).IsWord := by
  have digits : ∀ d < 10, (CodePoint.ofNat (0x30 + d)).isIdentifierPart := by decide
  intro c member
  obtain ⟨d, small, rfl⟩ := mem_ofNat member
  exact digits d small

/-! ## Identifiers -/

theorem ne_nil_of_isIdentifier (named : t.isIdentifier) : t ≠ [] := by
  rintro rfl
  cases named

theorem isIdentifier_append (named : s.isIdentifier) (word : t.IsWord) : (s ++ t).isIdentifier := by
  cases s with
  | nil => cases named
  | cons c rest =>
    rw [isIdentifier_cons] at named
    exact isIdentifier_cons.2 ⟨named.1, isWord_append.2 ⟨named.2, word⟩⟩

theorem isIdentifier_schemaName (named : t.isIdentifier) : t.schemaName.isIdentifier := by
  have suffix : IsWord "Schema" := by
    rw [IsWord]
    decide
  cases t with
  | nil => cases named
  | cons c rest =>
    have part := (isWord_cons.1 (isWord_of_isIdentifier named)).1
    rw [isIdentifier_cons] at named
    have first : isIdentifier c.lower :=
      CodePoint.forall_part (p := fun c => c.isIdentifierStart → isIdentifier c.lower)
        (by decide +kernel) part named.1
    exact isIdentifier_append (isIdentifier_append first named.2) suffix

end Text

namespace Allocator

theorem guarded_isIdentifier {base : Text} (some : base ≠ []) (word : base.IsWord) :
    (guarded base).isIdentifier := by
  have underscore : Text.isIdentifier [CodePoint.ofChar '_'] := by decide
  rw [guarded]
  split
  · exact Text.isIdentifier_append underscore word
  · next noDigit =>
    cases base with
    | nil => exact absurd rfl some
    | cons c rest =>
      rw [Text.isWord_cons] at word
      -- a part that starts no identifier is a digit
      have start : ¬ c.isDigit → c.isIdentifierStart :=
        CodePoint.forall_part (p := fun c => ¬ c.isDigit → c.isIdentifierStart) (by decide +kernel) word.1
      exact Text.isIdentifier_cons.2 ⟨start noDigit, word.2⟩

variable {a : Allocator} {keys : List Text}

theorem baseName_isIdentifier (root : a.rootName.isIdentifier) (ascii : ∀ key ∈ keys, key.IsAscii) :
    (a.baseName keys).isIdentifier := by
  rw [baseName]
  split
  · exact guarded_isIdentifier (Text.ne_nil_of_isIdentifier root) (Text.isWord_of_isIdentifier root)
  · next spelled =>
    refine guarded_isIdentifier (fun nothing => spelled (List.isEmpty_iff.2 nothing)) ?_
    exact Text.isWord_flatMap fun key member => Text.isWord_pascal (ascii key member)

/-- Whatever was produced before, the name for ASCII keys is an identifier. -/
theorem allocate_isIdentifier (root : a.rootName.isIdentifier) (ascii : ∀ key ∈ keys, key.IsAscii) :
    (a.allocate keys).1.isIdentifier := by
  have base := baseName_isIdentifier root ascii
  rw [allocate]
  dsimp only
  rw [numbered]
  split
  · exact base
  · exact Text.isIdentifier_append base (Text.isWord_ofNat _)

end Allocator

theorem TypeScript.mem_declaredNames {style : Style} {s : Shape} {name : Text}
    (declared : name ∈ declaredNames style s) : name ∈ s.names ∨ name = style.rootName := by
  rw [declaredNames, Shape.declarationOrder, Shape.records_eq, List.map_reverse, List.mem_append,
    List.mem_reverse] at declared
  refine declared.imp_right fun last => ?_
  split at last
  · cases last
  · exact List.mem_singleton.1 last

open Json (Value)

namespace Inference

variable {o : Options} {v : Value}

theorem name_isIdentifier (root : o.rootName.isIdentifier) (ascii : ∀ key ∈ v.allKeys, key.IsAscii) :
    ∀ name ∈ (infer o v).shape.names, name.isIdentifier := by
  have item : itemKey.IsAscii := by
    rw [Text.IsAscii]
    decide
  have allocated (a : Allocator) (keys : List Text) (same : a.rootName = o.rootName)
      (each : ∀ key ∈ keys, key.IsAscii) : (a.allocate keys).1.isIdentifier := by
    apply Allocator.allocate_isIdentifier _ each
    rw [same]
    exact root
  exact forall_names root item ascii allocated

/-- With ASCII keys and an identifier for the root, all names in the shape are identifiers, and so are all
constants that the validating document declares. -/
theorem typeNames_areIdentifiers {style : Style} (sameRoot : style.rootName = o.rootName)
    (root : o.rootName.isIdentifier) (ascii : ∀ key ∈ v.allKeys, key.IsAscii) :
    (∀ name ∈ (infer o v).shape.names, name.isIdentifier) ∧
      ∃ blocks,
        Zod.document style (infer o v).shape =
          Text.ofBlocks (("import \x7b z \x7d from \"zod\";" : Text) :: blocks ++ [Zod.rootType style]) ∧
        List.Forall₂ Zod.Declares (Zod.schemaNames style (infer o v).shape) blocks ∧
        ∀ constant ∈ Zod.schemaNames style (infer o v).shape, constant.isIdentifier := by
  have names := @name_isIdentifier o v root ascii
  obtain ⟨blocks, document, declares⟩ := Zod.document_declares style (infer o v).shape
  refine ⟨names, blocks, document, declares, ?_⟩
  rw [Zod.schemaNames, List.forall_mem_map]
  intro name declared
  rcases TypeScript.mem_declaredNames declared with inside | last
  · exact Text.isIdentifier_schemaName (names name inside)
  · rw [last, sameRoot]
    exact Text.isIdentifier_schemaName root

def oddKeys : Value := .object
  [("", .object []), ("--", .array [.object []]), ("1st", .object [("a..b", .object [("", .object [])])])]

theorem typeNames_areIdentifiers_oddKeys :
    Text.isIdentifier "$root" ∧ (∀ key ∈ oddKeys.allKeys, key.IsAscii) ∧
      (∀ name ∈ (infer { rootName := "$root" } oddKeys).shape.names, name.isIdentifier) ∧
      ∀ constant ∈ Zod.schemaNames { rootName := "$root" } (infer { rootName := "$root" } oddKeys).shape,
        constant.isIdentifier := by
  have root : Text.isIdentifier "$root" := by decide
  have ascii : ∀ key ∈ oddKeys.allKeys, key.IsAscii := by
    simp only [Text.IsAscii]
    decide
  obtain ⟨names, _, _, _, constants⟩ :=
    @typeNames_areIdentifiers { rootName := "$root" } oddKeys { rootName := "$root" } rfl root ascii
  exact ⟨root, ascii, names, constants⟩

example : (infer { rootName := "$root" } oddKeys).shape.names =
    (["$root", "$root2", "Item", "_1st", "_1stAB2", "_1stAB"] : List Text) := by
  rw [infer_shape]
  decide +kernel

end Inference

end JsonShape
