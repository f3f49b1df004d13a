import JsonShape.Proofs.ExampleValues
import JsonShape.Proofs.PropertyKeys
import JsonShape.Proofs.RenamedKeys

/-! The names of properties.

A declaration and an example name the properties of an object alike, each key by itself. Names of different
keys differ but for two cases: the keys are the same up to pairs of surrogates, or one is renamed to the
other.
-/

set_option autoImplicit false

namespace JsonShape

namespace Text

variable {key other : Text}

theorem eq_camel_of_propertyKey (snake : key.isSnake) (same : key.camel = other.propertyKey) :
    other = key.camel := by
  rcases propertyKey_cases other with ⟨_, itself, _⟩ | ⟨_, marked⟩
  · rw [same, itself]
  · rw [← same] at marked
    exact absurd marked (head_of_isIdentifier (isIdentifier_camel snake))

theorem displayKey_of_isSnake (snake : key.isSnake) : key.displayKey true = key.camel :=
  if_pos snake

theorem displayKey_of_not_isSnake (other : ¬ key.isSnake) : key.displayKey true = key.propertyKey :=
  if_neg other

theorem displayKey_camel (snake : key.isSnake) : key.camel.displayKey true = key.camel := by
  by_cases again : key.camel.isSnake
  · -- without capitals the camel case is the key
    have same : key.camel = key := by
      rw [← uncamel_of_small (small_of_isSnake again), uncamel_camel (small_of_isSnake snake)]
    rw [displayKey_of_isSnake again, same, same]
  · rw [displayKey_of_not_isSnake again, propertyKey_camel snake]

/-- Where keys are renamed, two keys get the same name exactly if they are the same up to pairs of surrogates
or one is the camel case of the other. -/
theorem displayKey_eq_iff :
    key.displayKey true = other.displayKey true ↔
      key.paired = other.paired ∨ (key.isSnake ∧ other = key.camel) ∨ (other.isSnake ∧ key = other.camel) := by
  constructor
  · intro same
    by_cases snake : key.isSnake <;> by_cases alsoSnake : other.isSnake
    · rw [displayKey_of_isSnake snake, displayKey_of_isSnake alsoSnake] at same
      exact .inl (congrArg _ (camel_injOn snake alsoSnake same))
    · rw [displayKey_of_isSnake snake, displayKey_of_not_isSnake alsoSnake] at same
      exact .inr (.inl ⟨snake, eq_camel_of_propertyKey snake same⟩)
    · rw [displayKey_of_not_isSnake snake, displayKey_of_isSnake alsoSnake] at same
      exact .inr (.inr ⟨alsoSnake, eq_camel_of_propertyKey alsoSnake same.symm⟩)
    · rw [displayKey_of_not_isSnake snake, displayKey_of_not_isSnake alsoSnake] at same
      exact .inl (propertyKey_eq_iff.1 same)
  · rintro (same | ⟨snake, rfl⟩ | ⟨alsoSnake, rfl⟩)
    · by_cases snake : key.isSnake
      · rw [eq_of_paired_isWord (isWord_of_isSnake snake) same]
      · by_cases alsoSnake : other.isSnake
        · rw [eq_of_paired_isWord (isWord_of_isSnake alsoSnake) same.symm]
        · rw [displayKey_of_not_isSnake snake, displayKey_of_not_isSnake alsoSnake]
          exact propertyKey_eq_iff.2 same
    · rw [displayKey_camel snake, displayKey_of_isSnake snake]
    · rw [displayKey_camel alsoSnake, displayKey_of_isSnake alsoSnake]

end Text

theorem Style.keyName_eq_iff {style : Style} {key other : Text} :
    style.keyName key = style.keyName other ↔
      key.paired = other.paired ∨ (style.renames key ∧ other = key.camel) ∨
        (style.renames other ∧ key = other.camel) := by
  rw [keyName, keyName, renames, renames]
  cases style.camelKeys with
  | true => simpa using Text.displayKey_eq_iff
  | false => simpa [Text.displayKey] using Text.propertyKey_eq_iff

namespace Record

def propertyNames (style : Style) (a : Record) : List Text := a.keys.map style.keyName

variable {style : Style} {a : Record}

theorem propertyNames_nodup_iff (once : a.keys.Nodup) :
    (a.propertyNames style).Nodup ↔
      (a.keys.map Text.paired).Nodup ∧
        ∀ key ∈ a.keys, style.renames key → key.camel ∈ a.keys → key.camel = key := by
  rw [propertyNames, List.nodup_map_iff_inj_on once, List.nodup_map_iff_inj_on once]
  constructor
  · intro apart
    refine ⟨fun key member other among same =>
      apart key member other among (Style.keyName_eq_iff.2 (.inl same)), fun key member renamed among => ?_⟩
    exact (apart key member key.camel among (Style.keyName_eq_iff.2 (.inr (.inl ⟨renamed, rfl⟩)))).symm
  · rintro ⟨unpaired, stays⟩ key member other among same
    rcases Style.keyName_eq_iff.1 same with alike | ⟨renamed, rfl⟩ | ⟨renamed, rfl⟩
    · exact unpaired key member other among alike
    · exact (stays key member renamed among).symm
    · exact stays other among renamed member

end Record

/-! ## Names in documents -/

def TypeScript.NamesField (name line : Text) : Prop :=
  ∃ (optional : Bool) (rest : Text),
    line = "  " ++ name ++ (if optional then ("?" : Text) else []) ++ ": " ++ rest

def Example.NamesMember (depth : Nat) (name line : Text) : Prop :=
  ∃ value, line = Literal.line depth name value

theorem TypeScript.block_names (style : Style) (a : Record) :
    ∃ opening lines closing, block style a = opening ++ lines.flatten ++ closing ∧
      List.Forall₂ NamesField (a.propertyNames style) lines := by
  refine ⟨_, a.properties.map (field style), _, by rw [block, List.flatMap_def], ?_⟩
  rw [Record.propertyNames, Record.keys, List.map_map, List.forall₂_map_left_iff,
    List.forall₂_map_right_iff, List.forall₂_same]
  intro p _
  exact ⟨p.optional, _, by rw [field_eq, beforeType, List.append_assoc]; rfl⟩

theorem Example.valueOf_names (style : Style) (a : Record) (depth : Nat) :
    ∃ lines, valueOf style a.toShape depth = Literal.block depth lines ∧
      List.Forall₂ (NamesMember depth) (a.propertyNames style) lines := by
  refine ⟨_, valueOf_object style a.name a.properties depth, ?_⟩
  rw [Record.propertyNames, Record.keys, List.map_map, List.forall₂_map_left_iff,
    List.forall₂_map_right_iff, List.forall₂_same]
  exact fun p _ => ⟨_, rfl⟩

/-- The declaration and the example of an object name each of its properties once, exactly if no two keys are
the same up to pairs of surrogates and no renamed key takes the name of another one. -/
theorem namesApart_iff {style : Style} {a : Record} (once : a.keys.Nodup) :
    (∃ opening lines closing, TypeScript.block style a = opening ++ lines.flatten ++ closing ∧
      List.Forall₂ TypeScript.NamesField (a.propertyNames style) lines) ∧
    (∀ depth, ∃ lines, Example.valueOf style a.toShape depth = Literal.block depth lines ∧
      List.Forall₂ (Example.NamesMember depth) (a.propertyNames style) lines) ∧
    ((a.propertyNames style).Nodup ↔
      (a.keys.map Text.paired).Nodup ∧
        ∀ key ∈ a.keys, style.renames key → key.camel ∈ a.keys → key.camel = key) :=
  ⟨TypeScript.block_names style a, Example.valueOf_names style a, Record.propertyNames_nodup_iff once⟩

def userKeys : Record :=
  ⟨"User", [⟨"user_name", .string, false, false⟩, ⟨"line_2", .string, true, false⟩,
    ⟨"1st", .number, false, true⟩]⟩

theorem namesApart_userKeys :
    userKeys.keys.Nodup ∧ (userKeys.propertyNames { camelKeys := true }).Nodup := by
  have once : userKeys.keys.Nodup := by decide
  exact ⟨once, (@namesApart_iff { camelKeys := true } userKeys once).2.2.2 (by decide)⟩

def bothCases : Record :=
  ⟨"Root", [⟨"user_name", .number, false, false⟩, ⟨"userName", .string, false, false⟩]⟩

def bothPairs : Record :=
  ⟨"Root", [⟨[CodePoint.ofNat 0xD83D, CodePoint.ofNat 0xDE00], .number, false, false⟩,
    ⟨"😀", .string, false, false⟩]⟩

theorem propertyNames_collide :
    bothCases.keys.Nodup ∧ ¬ (bothCases.propertyNames { camelKeys := true }).Nodup ∧
      bothPairs.keys.Nodup ∧ ¬ (bothPairs.propertyNames {}).Nodup := by
  decide

end JsonShape
