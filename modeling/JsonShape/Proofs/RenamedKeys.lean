import JsonShape.Document.TypeScript
import JsonShape.Proofs.Legibility
import JsonShape.Shape.Record

/-! Keys in camel case.

A key in snake case has no capitals, so a capital in its camel case can only stand for an underscore and a
letter. Writing these out again gives the key back, whatever digits it has, and its camel case never needs
quotes. The comment in front of a declaration names each renamed key once, in the order of the properties,
and can be told from whatever follows it.
-/

set_option autoImplicit false

namespace JsonShape

namespace CodePoint

variable {c : CodePoint}

theorem isIdentifierPart_of_snakePart (part : c.isSnakePart) : c.isIdentifierPart := by
  rw [isSnakePart, Bool.or_eq_true] at part
  simp only [isIdentifierPart, isIdentifierStart, isAsciiLetter, Bool.or_eq_true]
  tauto

theorem not_upper_of_snakePart (part : c.isSnakePart) : c.isAsciiUpper = false := by
  simp only [isSnakePart, isAsciiLower, isAsciiDigit, Bool.or_eq_true, Bool.and_eq_true,
    decide_eq_true_eq] at part
  simp only [isAsciiUpper, Bool.and_eq_false_iff, decide_eq_false_iff_not]
  omega

theorem asciiUpper_undone (small : c.isAsciiLower) :
    c.asciiUpper.isAsciiUpper ∧ c.asciiUpper.lower = [c] := by
  have alphabet : ∀ n < 26, (ofNat (0x61 + n)).asciiUpper.isAsciiUpper ∧
      (ofNat (0x61 + n)).asciiUpper.lower = [ofNat (0x61 + n)] := by decide
  rw [isAsciiLower, Bool.and_eq_true, decide_eq_true_eq, decide_eq_true_eq] at small
  have letter := alphabet (c.val - 0x61) (by omega)
  rwa [Nat.add_sub_cancel' small.1, Text.ofNat_val] at letter

end CodePoint

namespace Text

def uncamel (t : Text) : Text :=
  t.flatMap fun c => if c.isAsciiUpper then CodePoint.ofChar '_' :: c.lower else [c]

theorem uncamel_cons (c : CodePoint) (t : Text) :
    uncamel (c :: t) = (if c.isAsciiUpper then CodePoint.ofChar '_' :: c.lower else [c]) ++ t.uncamel :=
  List.flatMap_cons

theorem uncamel_camel {t : Text} (small : ∀ c ∈ t, c.isAsciiUpper = false) : t.camel.uncamel = t := by
  fun_induction camel t with
  | case1 => rfl
  | case2 c =>
    rw [uncamel_cons, small c List.mem_cons_self]
    rfl
  -- a letter raised here is the only way to a capital
  | case3 c d rest underscore ih =>
    obtain ⟨rfl, letter⟩ := underscore
    obtain ⟨capital, lowered⟩ := CodePoint.asciiUpper_undone letter
    have later : ∀ e ∈ rest, e.isAsciiUpper = false := fun e member =>
      small e (List.mem_cons_of_mem _ (List.mem_cons_of_mem d member))
    rw [uncamel_cons, if_pos capital, lowered, ih later]
    rfl
  | case4 c d rest _ ih =>
    rw [uncamel_cons, small c List.mem_cons_self, ih fun e member => small e (List.mem_cons_of_mem c member)]
    rfl

theorem uncamel_of_small {t : Text} (small : ∀ c ∈ t, c.isAsciiUpper = false) : t.uncamel = t := by
  induction t with
  | nil => rfl
  | cons c rest ih =>
    rw [uncamel_cons, small c List.mem_cons_self, ih fun e member => small e (List.mem_cons_of_mem c member)]
    rfl

theorem isWord_camel {t : Text} (word : t.IsWord) : t.camel.IsWord := by
  fun_induction camel t with
  | case1 => exact word
  | case2 => exact word
  | case3 c d rest underscore ih =>
    have capital := (CodePoint.asciiUpper_undone underscore.2).1
    rw [isWord_cons, isWord_cons] at word
    refine isWord_cons.2 ⟨?_, ih word.2.2⟩
    rw [CodePoint.isIdentifierPart, CodePoint.isIdentifierStart, CodePoint.isAsciiLetter, capital]
    simp
  | case4 c d rest _ ih =>
    rw [isWord_cons] at word
    exact isWord_cons.2 ⟨word.1, ih word.2⟩

theorem camel_cons {c : CodePoint} (letter : c ≠ '_') (t : Text) : camel (c :: t) = c :: t.camel := by
  cases t with
  | nil => rfl
  | cons d rest => rw [camel, if_neg fun underscore => letter underscore.1]

/-! ## Keys in snake case -/

variable {key : Text}

theorem mem_of_isSnakeTail {t : Text} (tail : t.isSnakeTail) : ∀ c ∈ t, c = '_' ∨ c.isSnakePart := by
  induction t with
  | nil => exact List.forall_mem_nil _
  | cons c rest ih =>
    rw [isSnakeTail, Bool.and_eq_true] at tail
    refine List.forall_mem_cons.2 ⟨?_, ih tail.2⟩
    by_cases underscore : c = '_'
    · exact .inl underscore
    · rw [if_neg underscore] at tail
      exact .inr tail.1

theorem mem_of_isSnake (snake : key.isSnake) : ∀ c ∈ key, c = '_' ∨ c.isSnakePart := by
  cases key with
  | nil => cases snake
  | cons c rest =>
    rw [isSnake, Bool.and_eq_true, Bool.and_eq_true] at snake
    refine List.forall_mem_cons.2 ⟨.inr ?_, mem_of_isSnakeTail snake.2⟩
    rw [CodePoint.isSnakePart, snake.1.1, Bool.true_or]

theorem small_of_isSnake (snake : key.isSnake) : ∀ c ∈ key, c.isAsciiUpper = false := by
  intro c member
  rcases mem_of_isSnake snake c member with rfl | part
  · decide
  · exact CodePoint.not_upper_of_snakePart part

theorem isWord_of_isSnake (snake : key.isSnake) : key.IsWord := by
  intro c member
  rcases mem_of_isSnake snake c member with rfl | part
  · decide
  · exact CodePoint.isIdentifierPart_of_snakePart part

theorem isIdentifier_camel (snake : key.isSnake) : key.camel.isIdentifier := by
  have word := isWord_camel (isWord_of_isSnake snake)
  cases key with
  | nil => cases snake
  | cons c rest =>
    rw [isSnake, Bool.and_eq_true, Bool.and_eq_true] at snake
    have letter : c ≠ '_' := by
      rintro rfl
      exact absurd snake.1.1 (by decide)
    rw [camel_cons letter] at word ⊢
    refine isIdentifier_cons.2 ⟨?_, (isWord_cons.1 word).2⟩
    rw [CodePoint.isIdentifierStart, CodePoint.isAsciiLetter, snake.1.1]
    rfl

theorem camel_injOn {other : Text} (snake : key.isSnake) (alsoSnake : other.isSnake)
    (same : key.camel = other.camel) : key = other := by
  rw [← uncamel_camel (small_of_isSnake snake), same, uncamel_camel (small_of_isSnake alsoSnake)]

theorem propertyKey_camel (snake : key.isSnake) : key.camel.propertyKey = key.camel :=
  if_pos (isIdentifier_camel snake)

end Text

/-- Whether a key is written in camel case, which may be the key itself. -/
def Style.renames (style : Style) (key : Text) : Bool := style.camelKeys && key.isSnake

theorem Style.keyName_of_renames {style : Style} {key : Text} (renamed : style.renames key) :
    style.keyName key = key.camel :=
  if_pos renamed

namespace TypeScript

/-! ## The comment -/

def renamedKeys (style : Style) (r : Record) : List Text := r.keys.filter style.renames

def comment (entries : List (Text × Text)) : Text :=
  let line : Text × Text → Text := fun (name, key) =>
    "  // \"" ++ name ++ "\" maps to JSON key \"" ++ key ++ "\"\n"
  if entries.isEmpty then [] else "/**\n" ++ entries.flatMap line ++ " */\n"

variable {style style' : Style} {a b : Record} {r r' : Text}

theorem isSnake_of_renamed {key : Text} (renamed : key ∈ renamedKeys style a) : key.isSnake := by
  have renames := List.of_mem_filter renamed
  rw [Style.renames, Bool.and_eq_true] at renames
  exact renames.2

theorem renamedKeys_eq (style : Style) (a : Record) :
    renamedKeys style a = if style.camelKeys then (a.properties.map (·.key)).filter Text.isSnake else [] := by
  unfold renamedKeys Style.renames
  cases style.camelKeys
  · simp
  · rfl

theorem mappings_of_none (none : renamedKeys style a = []) : mappings style a = [] := by
  rw [renamedKeys_eq] at none
  rw [mappings, none]
  rfl

theorem mappings_of_some (some : renamedKeys style a ≠ []) :
    mappings style a = "/**\n" ++ (renamedKeys style a).flatMap mapping ++ " */\n" := by
  rw [← List.isEmpty_eq_false_iff] at some
  rw [mappings, ← renamedKeys_eq, some]
  rfl

theorem mappings_eq (style : Style) (a : Record) :
    mappings style a = comment ((renamedKeys style a).map fun key => (style.keyName key, key)) := by
  by_cases none : renamedKeys style a = []
  · rw [mappings_of_none none, none]
    rfl
  · have lines : (renamedKeys style a).flatMap mapping = (renamedKeys style a).flatMap fun key =>
        ("  // \"" ++ style.keyName key ++ "\" maps to JSON key \"" ++ key ++ "\"\n" : Text) := by
      refine List.flatMap_congr fun key member => ?_
      rw [Style.keyName_of_renames (List.of_mem_filter member)]
      rfl
    rw [mappings_of_some none, comment, List.isEmpty_map, List.isEmpty_eq_false_iff.2 none, lines]
    simp only [List.flatMap_map]
    rfl

def mappingScript : Script Text Text where
  write := mapping
  look := id
  allows key := key.isSnake
  ends _ := True

theorem legible_mapping {key : Text} (snake : key.isSnake) : mappingScript.Legible key := by
  intro other alsoSnake r r' _ _ same
  change mapping key ++ r = mapping other ++ r' at same
  simp only [mapping, List.append_assoc, List.append_cancel_left_eq] at same
  have ends (t : Text) : Text.EndsWord ("\" maps to JSON key \"" ++ t) := Text.endsWord_cons (by decide) _
  obtain ⟨_, keyed⟩ := Text.word_append_inj (Text.isWord_camel (Text.isWord_of_isSnake snake))
    (Text.isWord_camel (Text.isWord_of_isSnake alsoSnake)) (ends _) (ends _) same
  obtain ⟨keys, later⟩ := Text.word_append_inj (Text.isWord_of_isSnake snake)
    (Text.isWord_of_isSnake alsoSnake) (Text.endsWord_cons (by decide) _)
    (Text.endsWord_cons (by decide) _) (List.append_cancel_left keyed)
  exact ⟨keys, @List.append_cancel_left _ ("\"\n" : Text) _ _ later⟩

theorem continues_mappings : mappingScript.Continues fun t => (" */\n" : Text) <+: t where
  between _ _ := trivial
  last _ _ := trivial
  apart key t := by
    change ¬ (" */\n" : Text) <+: mapping key ++ t
    simp only [mapping, List.append_assoc]
    exact Text.Apart.not_prefix (by decide) _

/-- The comment tells which keys are renamed, and where it ends. -/
theorem mappings_append_inj (bare : ¬ ("/**\n" : Text) <+: r) (bare' : ¬ ("/**\n" : Text) <+: r')
    (same : mappings style a ++ r = mappings style' b ++ r') :
    renamedKeys style a = renamedKeys style' b ∧ r = r' := by
  by_cases none : renamedKeys style a = [] <;> by_cases none' : renamedKeys style' b = []
  · rw [mappings_of_none none, mappings_of_none none'] at same
    exact ⟨none.trans none'.symm, same⟩
  · rw [mappings_of_none none, mappings_of_some none', List.append_assoc, List.append_assoc] at same
    exact absurd ⟨_, same.symm⟩ bare
  · rw [mappings_of_some none, mappings_of_none none', List.append_assoc, List.append_assoc] at same
    exact absurd ⟨_, same⟩ bare'
  · rw [mappings_of_some none, mappings_of_some none'] at same
    simp only [List.append_assoc, List.append_cancel_left_eq] at same
    obtain ⟨keys, later⟩ := Script.flatMap_append_inj continues_mappings
      (fun key member => legible_mapping (isSnake_of_renamed member))
      (fun key member => isSnake_of_renamed member) (List.prefix_append _ r) (List.prefix_append _ r') same
    exact ⟨by simpa [mappingScript] using keys, List.append_cancel_left later⟩

/-- The comment in front of a declaration gives the renamed keys in the order of the properties, each after its
name, and is enough to know them. -/
structure MapsBack (style : Style) (a : Record) : Prop where
  inFront : ∃ declaration, block style a = mappings style a ++ declaration ∧
    ("export " : Text) <+: declaration
  listed : mappings style a = comment ((renamedKeys style a).map fun key => (style.keyName key, key))
  determined (style' : Style) (b : Record) (r r' : Text) : ¬ ("/**\n" : Text) <+: r →
    ¬ ("/**\n" : Text) <+: r' → mappings style a ++ r = mappings style' b ++ r' →
    renamedKeys style a = renamedKeys style' b

theorem block_mappings (style : Style) (a : Record) :
    ∃ declaration, block style a = mappings style a ++ declaration ∧ ("export " : Text) <+: declaration := by
  have type : ("export " : Text) <+: "export type " := ⟨"type ", rfl⟩
  have interface : ("export " : Text) <+: "export interface " := ⟨"interface ", rfl⟩
  refine ⟨_, by rw [block, List.append_assoc, List.append_assoc], ?_⟩
  refine List.IsPrefix.trans ?_ (List.prefix_append _ _)
  split
  · rw [List.append_assoc]
    exact interface.trans (List.prefix_append _ _)
  · rw [List.append_assoc]
    exact type.trans (List.prefix_append _ _)

end TypeScript

structure Text.Renamed (key : Text) : Prop where
  identifier : key.camel.isIdentifier
  /-- Any other key that reads so would be written in the same way. -/
  unquoted : key.displayKey true = key.camel.propertyKey
  undone : key.camel.uncamel = key
  unique (other : Text) : other.isSnake → other.camel = key.camel → other = key

/-- Renaming keeps what a key is, in its name and in the comment of every declaration. -/
theorem renamed_mapsBack :
    (∀ key : Text, key.isSnake → key.Renamed) ∧ ∀ style a, TypeScript.MapsBack style a := by
  constructor
  · intro key snake
    refine ⟨Text.isIdentifier_camel snake, ?_, Text.uncamel_camel (Text.small_of_isSnake snake), ?_⟩
    · rw [Text.propertyKey_camel snake]
      exact if_pos snake
    · exact fun other alsoSnake same => Text.camel_injOn alsoSnake snake same
  · intro style a
    exact ⟨TypeScript.block_mappings style a, TypeScript.mappings_eq style a, fun style' b r r' bare bare' same =>
      (TypeScript.mappings_append_inj bare bare' same).1⟩

/-- A segment of figures keeps its underscore. -/
theorem renamed_mapsBack_addressLine :
    Text.isSnake "address_line_2" ∧ Text.camel "address_line_2" = "addressLine_2" ∧
      Text.Renamed "address_line_2" := by
  have snake : Text.isSnake "address_line_2" := by decide
  exact ⟨snake, by decide, renamed_mapsBack.1 _ snake⟩

end JsonShape
