import JsonShape.Proofs.Legibility
import JsonShape.Proofs.Numerals
import JsonShape.Proofs.Rendering

/-! Type declarations can be read off their document.

An expression that is no union starts with a word or a bracketed union and goes on with brackets for
arrays; a union is a list of such expressions, and `null` joins this list where a property is nullable.
So a document shows which objects are declared and how, as far as a type can show it.
-/

set_option autoImplicit false

namespace JsonShape

open Json (StartsIn)

namespace Shape

def nullFree : Shape → Bool
  | .null => false
  | .union variants => variants.all fun v => !v.isNull
  | _ => true

def core : Shape → Shape
  | .array element => core element
  | s => s

def rank : Shape → Nat
  | .array element => rank element + 1
  | _ => 0

def alternatives : Shape → List Shape
  | .union variants => variants
  | s => [s]

theorem exists_variants {s : Shape} (union : s.isUnion) : ∃ variants, s = .union variants := by
  cases s with
  | union variants => exact ⟨variants, rfl⟩
  | _ => cases union

theorem size_core_le (s : Shape) : s.core.size ≤ s.size := by
  induction s with
  | array element ih =>
    rw [core, size]
    omega
  | _ => exact Nat.le_refl _

theorem core_ne_array (s element : Shape) : s.core ≠ .array element := by
  induction s with
  | array inner ih => exact ih
  | _ => exact Shape.noConfusion

theorem all_core {test : Shape → Bool} {s : Shape} (passes : s.all test) : s.core.all test := by
  induction s with
  | array element ih => exact ih ((all_iff.1 passes).2 element List.mem_cons_self)
  | _ => exact passes

/-- A look at the core and the number of arrays around it are a look at the shape. -/
theorem brief_of_core {name : Text → Text} {dates : Bool} {s t : Shape} (ranks : s.rank = t.rank)
    (cores : s.core.brief name dates = t.core.brief name dates) :
    s.brief name dates = t.brief name dates := by
  induction s generalizing t with
  | array element ih =>
    cases t with
    | array other => rw [brief, brief, ih (Nat.succ.inj ranks) cores]
    | _ => cases ranks
  | _ =>
    cases t with
    | array other => cases ranks
    | _ => exact cores

end Shape

namespace TypeScript

variable {s t : Shape} {r r' : Text}

def basicTypes : List Text := ["string", "number", "boolean", "null", "unknown"]

def isTypeName (name : Text) : Bool := name.isIdentifier && !basicTypes.contains name

/-- Whether the expression and the declaration of a node tell what it is: unions are flat and have several
variants, properties leave null to their flag, and no object is named like another type. -/
def tellable : Shape → Bool
  | .union variants => 2 ≤ variants.length && variants.all fun v => !v.isUnion
  | .object name properties => isTypeName name && properties.all fun p => p.shape.nullFree
  | _ => true

theorem tellable_union {variants : List Shape} (passes : (Shape.union variants).all tellable) :
    2 ≤ variants.length ∧ ∀ v ∈ variants, v.all tellable ∧ v.isUnion = false := by
  obtain ⟨here, inner⟩ := Shape.all_iff.1 passes
  simp only [tellable, Bool.and_eq_true, decide_eq_true_eq, List.all_eq_true, Bool.not_eq_true'] at here
  exact ⟨here.1, fun v member => ⟨inner v member, here.2 v member⟩⟩

/-! ## Expressions -/

def coreText (s : Shape) : Text :=
  if s.core.isUnion then "(" ++ typeOf s.core ++ ")" else typeOf s.core

theorem typeOf_single (single : s.isUnion = false) :
    typeOf s = coreText s ++ Text.times s.rank "[]" := by
  induction s with
  | array element ih =>
    have more : Text.times (element.rank + 1) "[]" = Text.times element.rank "[]" ++ "[]" := by
      rw [Text.times, List.replicate_succ', List.flatten_append, ← Text.times]
      rfl
    rw [typeOf_array, Shape.rank, more, coreText, Shape.core]
    cases inner : element.isUnion with
    | true =>
      cases element with
      | union variants =>
        simp only [Shape.core, Shape.rank, Shape.isUnion, if_true, List.append_assoc]
        rfl
      | _ => cases inner
    | false =>
      rw [if_neg Bool.false_ne_true, ih inner, coreText, List.append_assoc]
  | union variants => cases single
  | _ => exact (List.append_nil _).symm

theorem brackets_append_inj {m n : Nat} (ends : ∀ c ∈ r.head?, c ≠ '[') (ends' : ∀ c ∈ r'.head?, c ≠ '[')
    (same : Text.times m "[]" ++ r = Text.times n "[]" ++ r') : m = n ∧ r = r' := by
  induction m generalizing n with
  | zero =>
    cases n with
    | zero => exact ⟨rfl, same⟩
    | succ n =>
      change r = _ at same
      exact absurd rfl (ends _ (by rw [same]; rfl))
  | succ m ih =>
    cases n with
    | zero =>
      change _ = r' at same
      exact absurd rfl (ends' _ (by rw [← same]; rfl))
    | succ n =>
      obtain ⟨rfl, rest⟩ := ih (@List.append_cancel_left _ ("[]" : Text) _ _ same)
      exact ⟨rfl, rest⟩

def ofWord (word : Text) : Shape :=
  if word = "string" then .string
  else if word = "number" then .number
  else if word = "boolean" then .boolean
  else if word = "null" then .null
  else if word = "unknown" then .unknown
  else .object word []

/-- A core that is no union is written as a word, and the word shows it. -/
theorem word_core (passes : s.all tellable) (single : s.core.isUnion = false) :
    (typeOf s.core).isIdentifier ∧ s.core.brief id false = ofWord (typeOf s.core) := by
  have here := (Shape.all_iff.1 (Shape.all_core passes)).1
  have notArray := Shape.core_ne_array s
  cases core : s.core with
  | array element => exact absurd core (notArray element)
  | union variants => rw [core] at single; cases single
  | object name properties =>
    rw [core, tellable, Bool.and_eq_true, isTypeName, Bool.and_eq_true, Bool.not_eq_true'] at here
    refine ⟨by rw [typeOf_object]; exact here.1.1, ?_⟩
    have declared := here.1.2
    simp only [basicTypes, List.contains_cons, List.contains_nil, Bool.or_false, Bool.or_eq_false_iff,
      beq_eq_false_iff_ne] at declared
    simp only [typeOf_object, ofWord, declared, if_false, Shape.brief, id_eq]
  | _ =>
    rw [typeOf_eq]
    exact ⟨by decide, rfl⟩

/-- What may follow an expression that is no union, and one that may be a union. -/
def typeEnds : Text := [' ', ')', ';']

def unionEnds : Text := [')', ';']

def typeScript : Script Shape Shape where
  write := typeOf
  look := Shape.brief id false
  allows s := s.all tellable ∧ s.isUnion = false
  ends := StartsIn typeEnds

theorem continues_types : (typeScript.after " | ").Continues (StartsIn unionEnds) where
  between s t := by
    intro c first
    cases first
    decide
  last t stops := stops.mono (by decide)
  apart s t stops := absurd (stops ' ' rfl) (by decide)

theorem union_append_inj {variants others : List Shape}
    (legible : ∀ v ∈ variants, typeScript.Legible v) (passes : (Shape.union variants).all tellable)
    (passes' : (Shape.union others).all tellable) (stops : StartsIn unionEnds r)
    (stops' : StartsIn unionEnds r')
    (same : typeOf (.union variants) ++ r = typeOf (.union others) ++ r') :
    (Shape.union variants).brief id false = (Shape.union others).brief id false ∧ r = r' := by
  have nonempty {variants : List Shape} (passes : (Shape.union variants).all tellable) :
      variants ≠ [] :=
    List.ne_nil_of_length_pos (Nat.lt_of_lt_of_le Nat.two_pos (tellable_union passes).1)
  rw [typeOf_union, typeOf_union] at same
  obtain ⟨looks, rest⟩ := Script.joined_append_inj continues_types legible
    (fun v member => (tellable_union passes').2 v member) (nonempty passes) (nonempty passes') stops stops'
    same
  exact ⟨by rw [Shape.brief_union, Shape.brief_union]; exact congrArg _ looks, rest⟩

theorem endsWord_brackets (n : Nat) (ends : StartsIn typeEnds r) :
    (Text.times n "[]" ++ r).EndsWord := by
  intro c first
  cases n with
  | zero =>
    have others : ∀ c ∈ typeEnds, c.isIdentifierPart = false := by decide
    exact others c (ends c first)
  | succ n =>
    cases first
    decide

theorem core_append_inj
    (legible : ∀ variants, s.core = .union variants → ∀ v ∈ variants, typeScript.Legible v)
    (passes : s.all tellable) (passes' : t.all tellable) (ends : r.EndsWord) (ends' : r'.EndsWord)
    (same : coreText s ++ r = coreText t ++ r') :
    s.core.brief id false = t.core.brief id false ∧ r = r' := by
  unfold coreText at same
  -- a union stands in brackets and any other core is a word
  split at same <;> split at same
  · next union union' =>
    obtain ⟨variants, core⟩ := Shape.exists_variants union
    obtain ⟨others, core'⟩ := Shape.exists_variants union'
    have inside := Shape.all_core passes
    have inside' := Shape.all_core passes'
    rw [core, core'] at same ⊢
    rw [core] at inside
    rw [core'] at inside'
    simp only [List.append_assoc, List.append_cancel_left_eq] at same
    obtain ⟨looks, rest⟩ := union_append_inj (legible variants core) inside inside'
      (Json.startsIn_cons (by decide) r) (Json.startsIn_cons (by decide) r') same
    exact ⟨looks, (List.cons.inj rest).2⟩
  · next union notUnion =>
    have word := (word_core passes' (Bool.eq_false_iff.2 notUnion)).1
    exact absurd same.symm (Text.identifier_append_ne word (by decide) _ _)
  · next notUnion union =>
    have word := (word_core passes (Bool.eq_false_iff.2 notUnion)).1
    exact absurd same (Text.identifier_append_ne word (by decide) _ _)
  · next notUnion notUnion' =>
    obtain ⟨word, look⟩ := word_core passes (Bool.eq_false_iff.2 notUnion)
    obtain ⟨word', look'⟩ := word_core passes' (Bool.eq_false_iff.2 notUnion')
    obtain ⟨words, rest⟩ := Text.word_append_inj (Text.isWord_of_isIdentifier word)
      (Text.isWord_of_isIdentifier word') ends ends' same
    exact ⟨by rw [look, look', words], rest⟩

theorem legible_type {s : Shape} (passes : s.all tellable) (single : s.isUnion = false) :
    typeScript.Legible s := by
  rintro t ⟨passes', single'⟩ r r' ends ends' same
  change typeOf s ++ r = typeOf t ++ r' at same
  rw [typeOf_single single, typeOf_single single', List.append_assoc, List.append_assoc] at same
  -- variants in the core are smaller than the shape, and unions in them are in arrays
  have inner (variants : List Shape) (core : s.core = .union variants) (v : Shape)
      (member : v ∈ variants) : typeScript.Legible v := by
    have inside := Shape.all_core passes
    rw [core] at inside
    obtain ⟨passesInside, singleInside⟩ := (tellable_union inside).2 v member
    have smaller : v.size < s.size := by
      have bound := Shape.size_core_le s
      have below := Shape.size_le_sizeAll member
      rw [core, Shape.size] at bound
      omega
    exact legible_type passesInside singleInside
  obtain ⟨cores, later⟩ := core_append_inj inner passes passes' (endsWord_brackets _ ends)
    (endsWord_brackets _ ends') same
  have noBracket : ∀ c ∈ typeEnds, c ≠ '[' := by decide
  obtain ⟨ranks, rest⟩ := brackets_append_inj (fun c first => noBracket c (ends c first))
    (fun c first => noBracket c (ends' c first)) later
  exact ⟨Shape.brief_of_core ranks cores, rest⟩
termination_by s.size

/-! ## Properties -/

/-- The single shapes that an expression lists, with null where it is added. -/
def listed (s : Shape) (nullable : Bool) : List Shape :=
  s.alternatives ++ if nullable then [.null] else []

theorem alternatives_ne_nil (passes : s.all tellable) : s.alternatives ≠ [] := by
  cases s with
  | union variants =>
    exact List.ne_nil_of_length_pos (Nat.lt_of_lt_of_le Nat.two_pos (tellable_union passes).1)
  | _ => exact List.cons_ne_nil _ []

theorem listed_allows (passes : s.all tellable) (nullable : Bool) :
    ∀ v ∈ listed s nullable, typeScript.allows v := by
  intro v member
  rcases List.mem_append.1 member with alternative | null
  · cases s with
    | union variants => exact (tellable_union passes).2 v alternative
    | _ =>
      rw [List.mem_singleton.1 alternative]
      exact ⟨passes, rfl⟩
  · cases nullable with
    | true =>
      rw [List.mem_singleton.1 null]
      exact ⟨rfl, rfl⟩
    | false => cases null

/-- An expression and the null added to it are a list of single shapes. -/
theorem typeOf_listed (passes : s.all tellable) (nullable : Bool) :
    typeOf s ++ (if nullable then (" | null" : Text) else []) =
      Text.joined " | " ((listed s nullable).map typeOf) := by
  have alone : typeOf s = Text.joined " | " (s.alternatives.map typeOf) := by
    cases s with
    | union variants => exact typeOf_union variants
    | _ => exact List.intercalate_singleton.symm
  cases nullable with
  | false => simp [listed, alone]
  | true =>
    obtain ⟨first, rest, isFirst⟩ := List.exists_cons_of_ne_nil (alternatives_ne_nil passes)
    have null : typeOf .null = "null" := typeOf_eq .null
    simp only [listed, alone, isFirst, if_true, List.cons_append, List.map_cons, List.map_append, List.map_nil,
      Text.joined_cons, List.flatMap_append, List.append_assoc, List.flatMap_singleton, null]
    rfl

theorem brief_of_alternatives (passes : s.all tellable) (passes' : t.all tellable)
    (same : s.alternatives.map (Shape.brief id false) = t.alternatives.map (Shape.brief id false)) :
    s.brief id false = t.brief id false := by
  have alone {s : Shape} (single : s.isUnion = false) : s.alternatives = [s] := by
    cases s with
    | union variants => cases single
    | _ => rfl
  have several {s : Shape} (passes : s.all tellable) (union : s.isUnion) : s.alternatives.length ≠ 1 := by
    obtain ⟨variants, rfl⟩ := Shape.exists_variants union
    have lengths := (tellable_union passes).1
    rw [Shape.alternatives]
    omega
  have lengths := congrArg List.length same
  rw [List.length_map, List.length_map] at lengths
  cases union : s.isUnion with
  | true =>
    cases union' : t.isUnion with
    | true =>
      obtain ⟨variants, rfl⟩ := Shape.exists_variants union
      obtain ⟨others, rfl⟩ := Shape.exists_variants union'
      rw [Shape.brief_union, Shape.brief_union]
      exact congrArg Shape.union same
    | false =>
      rw [alone union'] at lengths
      exact absurd lengths (several passes union)
  | false =>
    cases union' : t.isUnion with
    | true =>
      rw [alone union] at lengths
      exact absurd lengths.symm (several passes' union')
    | false =>
      rw [alone union, alone union'] at same
      exact (List.cons.inj same).1

theorem null_notMem_alternatives (clean : s.nullFree) :
    Shape.null ∉ s.alternatives.map (Shape.brief id false) := by
  intro member
  obtain ⟨v, among, looks⟩ := List.mem_map.1 member
  have isNull : v = .null := by
    cases v with
    | null => rfl
    | _ => cases looks
  subst isNull
  cases s with
  | union variants =>
    rw [Shape.nullFree, List.all_eq_true] at clean
    cases clean _ among
  | null => cases clean
  | _ => cases List.mem_singleton.1 among

/-- A list of single shapes shows the shape, and whether null was added to it. -/
theorem brief_of_listed {nullable nullable' : Bool} (passes : s.all tellable) (passes' : t.all tellable)
    (clean : nullable ≠ nullable' → s.nullFree ∧ t.nullFree)
    (same : (listed s nullable).map (Shape.brief id false) =
      (listed t nullable').map (Shape.brief id false)) :
    s.brief id false = t.brief id false ∧ nullable = nullable' := by
  rw [listed, listed, List.map_append, List.map_append] at same
  by_cases flags : nullable = nullable'
  · subst flags
    exact ⟨brief_of_alternatives passes passes' (List.append_cancel_right same), rfl⟩
  · obtain ⟨free, free'⟩ := clean flags
    -- the null that one list ends with would be an alternative in the other
    cases nullable with
    | true =>
      have plain : nullable' = false := Bool.eq_false_iff.2 (Ne.symm flags)
      rw [plain, if_neg Bool.false_ne_true, List.map_nil, List.append_nil] at same
      refine absurd ?_ (null_notMem_alternatives free')
      rw [← same]
      exact List.mem_append_right _ List.mem_cons_self
    | false =>
      have added : nullable' = true := Bool.ne_false_iff.1 (Ne.symm flags)
      rw [added, if_neg Bool.false_ne_true, List.map_nil, List.append_nil] at same
      refine absurd ?_ (null_notMem_alternatives free)
      rw [same]
      exact List.mem_append_right _ List.mem_cons_self

/-- An expression, the null added to it and what follows them. -/
theorem expression_append_inj {nullable nullable' : Bool} (passes : s.all tellable)
    (passes' : t.all tellable) (clean : nullable ≠ nullable' → s.nullFree ∧ t.nullFree)
    (stops : StartsIn unionEnds r) (stops' : StartsIn unionEnds r')
    (same : typeOf s ++ ((if nullable then (" | null" : Text) else []) ++ r) =
      typeOf t ++ ((if nullable' then (" | null" : Text) else []) ++ r')) :
    (s.brief id false = t.brief id false ∧ nullable = nullable') ∧ r = r' := by
  rw [← List.append_assoc, ← List.append_assoc, typeOf_listed passes, typeOf_listed passes'] at same
  obtain ⟨looks, rest⟩ := Script.joined_append_inj continues_types
    (fun v member => legible_type (listed_allows passes _ v member).1 (listed_allows passes _ v member).2)
    (listed_allows passes' _) (List.append_ne_nil_of_left_ne_nil (alternatives_ne_nil passes) _)
    (List.append_ne_nil_of_left_ne_nil (alternatives_ne_nil passes') _) stops stops' same
  exact ⟨brief_of_listed passes passes' clean looks, rest⟩

def fieldScript (style : Style) : Script (Property Shape) (Property Shape) where
  write := field style
  look := Property.brief id false
  allows p := p.shape.all tellable ∧ p.shape.nullFree
  ends _ := True

variable {style : Style}

theorem keyName_eq (unrenamed : style.camelKeys = false) (key : Text) :
    style.keyName key = key.propertyKey := by
  rw [Style.keyName, unrenamed, Text.displayKey, Bool.false_and, if_neg Bool.false_ne_true]

theorem legible_field (unrenamed : style.camelKeys = false) {p : Property Shape}
    (allowed : (fieldScript style).allows p) : (fieldScript style).Legible p := by
  rintro q ⟨passes', clean'⟩ r r' _ _ same
  obtain ⟨passes, clean⟩ := allowed
  change field style p ++ r = field style q ++ r' at same
  simp only [field_eq, beforeType, afterType, keyName_eq unrenamed, List.append_assoc,
    List.append_cancel_left_eq] at same
  have ends (optional : Bool) (t : Text) :
      ((if optional then ("?" : Text) else []) ++ (": " ++ t)).EndsWord := by
    cases optional <;> exact Text.endsWord_cons (by decide) _
  obtain ⟨keys, marked⟩ := Text.propertyKey_append_inj (ends _ _) (ends _ _) same
  have noMark (t : Text) : ¬ ("?" : Text) <+: ": " ++ t := Text.Apart.not_prefix (by decide) t
  obtain ⟨optional, typed⟩ := Text.optional_append_inj (noMark _) (noMark _) marked
  obtain ⟨⟨looks, nullable⟩, rest⟩ := expression_append_inj passes passes' (fun _ => ⟨clean, clean'⟩)
    (Json.startsIn_cons (by decide) _) (Json.startsIn_cons (by decide) _)
    (@List.append_cancel_left _ (": " : Text) _ _ typed)
  refine ⟨?_, @List.append_cancel_left _ (";\n" : Text) _ _ rest⟩
  change Property.brief id false p = Property.brief id false q
  rw [Property.brief, Property.brief, keys, looks, optional, nullable]

/-! ## Documents -/

def blockScript (style : Style) : Script Declared Declared where
  write
    | .object r => block style r
    | .root s => "export type " ++ style.rootName ++ " = " ++ typeOf s ++ ";"
  look := Declared.brief id false
  allows := Declared.Passes tellable
  ends _ := True

theorem fields_allow {r : Record} (passes : r.toShape.all tellable) :
    isTypeName r.name ∧ ∀ p ∈ r.properties, (fieldScript style).allows p := by
  obtain ⟨here, inner⟩ := Shape.all_iff.1 passes
  rw [Record.toShape, tellable, Bool.and_eq_true, List.all_eq_true] at here
  exact ⟨here.1, fun p member => ⟨inner _ (List.mem_map_of_mem member), here.2 p member⟩⟩

theorem continues_fields (style : Style) : (fieldScript style).Continues (StartsIn ['\x7d']) where
  between _ _ := trivial
  last _ _ := trivial
  apart p t stops := by
    have first := stops ' ' (by change _ ∈ (field style p ++ t).head?; rw [field_eq, beforeType]; rfl)
    exact absurd first (by decide)

theorem fields_append_inj (unrenamed : style.camelKeys = false) {a b : Record}
    (passes : a.toShape.all tellable) (passes' : b.toShape.all tellable) (stops : StartsIn ['\x7d'] r)
    (stops' : StartsIn ['\x7d'] r')
    (same : a.properties.flatMap (field style) ++ r = b.properties.flatMap (field style) ++ r') :
    a.properties.map (Property.brief id false) = b.properties.map (Property.brief id false) ∧ r = r' :=
  Script.flatMap_append_inj (continues_fields style)
    (fun p member => legible_field unrenamed ((fields_allow passes).2 p member)) (fields_allow passes').2
    stops stops' same

def beforeName (interfaces : Bool) : Text := if interfaces then "export interface " else "export type "

def afterName (interfaces : Bool) : Text := if interfaces then " \x7b\n" else " = \x7b\n"

def closing (interfaces : Bool) : Text := if interfaces then "\x7d" else "\x7d;"

theorem block_unrenamed (unrenamed : style.camelKeys = false) (a : Record) :
    block style a = beforeName style.interfaces ++ (a.name ++ (afterName style.interfaces ++
      (a.properties.flatMap (field style) ++ closing style.interfaces))) := by
  rw [block, mappings, unrenamed]
  cases style.interfaces <;> simp [beforeName, afterName, closing]

theorem endsWord_afterName (interfaces : Bool) (t : Text) : (afterName interfaces ++ t).EndsWord := by
  cases interfaces <;> exact Text.endsWord_cons (by decide) _

theorem startsIn_closing (interfaces : Bool) (t : Text) :
    StartsIn ['\x7d'] (closing interfaces ++ t) := by
  cases interfaces <;> exact Json.startsIn_cons (by decide) _

theorem isWord_of_isTypeName {name : Text} (named : isTypeName name) : name.IsWord := by
  rw [isTypeName, Bool.and_eq_true] at named
  exact Text.isWord_of_isIdentifier named.1

theorem object_append_inj (unrenamed : style.camelKeys = false) {a b : Record}
    (passes : a.toShape.all tellable) (passes' : b.toShape.all tellable)
    (same : block style a ++ r = block style b ++ r') :
    a.brief id false = b.brief id false ∧ r = r' := by
  simp only [block_unrenamed unrenamed, List.append_assoc, List.append_cancel_left_eq] at same
  obtain ⟨names, opened⟩ := Text.word_append_inj
    (isWord_of_isTypeName (@fields_allow style _ passes).1)
    (isWord_of_isTypeName (@fields_allow style _ passes').1) (endsWord_afterName _ _)
    (endsWord_afterName _ _) same
  obtain ⟨properties, closed⟩ := fields_append_inj unrenamed passes passes' (startsIn_closing _ r)
    (startsIn_closing _ r') (List.append_cancel_left opened)
  refine ⟨?_, List.append_cancel_left closed⟩
  rw [Record.brief, Record.brief, names, properties]

theorem head_typeOf (passes : s.all tellable) (t : Text) :
    ∃ c ∈ (typeOf s ++ t).head?, c = '(' ∨ c.isIdentifierPart := by
  have single {v : Shape} (passes : v.all tellable) (single : v.isUnion = false) (t : Text) :
      ∃ c ∈ (typeOf v ++ t).head?, c = '(' ∨ c.isIdentifierPart := by
    rw [typeOf_single single, coreText]
    split
    · exact ⟨'(', rfl, .inl rfl⟩
    · next notUnion =>
      have word := (word_core passes (Bool.eq_false_iff.2 notUnion)).1
      cases core : typeOf v.core with
      | nil => rw [core] at word; cases word
      | cons c rest =>
        rw [core] at word
        exact ⟨c, rfl, .inr (Text.isWord_of_isIdentifier word c List.mem_cons_self)⟩
  cases union : s.isUnion with
  | false => exact single passes union t
  | true =>
    obtain ⟨variants, rfl⟩ := Shape.exists_variants union
    obtain ⟨several, each⟩ := tellable_union passes
    obtain ⟨first, rest, rfl⟩ := List.exists_cons_of_length_pos (Nat.lt_of_lt_of_le Nat.two_pos several)
    obtain ⟨passes, isSingle⟩ := each first List.mem_cons_self
    rw [typeOf_union, List.map_cons, Text.joined_cons, List.append_assoc]
    exact single passes isSingle _

/-- An alias is no declaration of an object. -/
theorem alias_append_ne (unrenamed : style.camelKeys = false) (named : style.rootName.isIdentifier)
    {a : Record} (passes : a.toShape.all tellable) (passes' : s.all tellable) :
    block style a ++ r ≠ "export type " ++ style.rootName ++ " = " ++ typeOf s ++ ";" ++ r' := by
  intro same
  rw [block_unrenamed unrenamed] at same
  simp only [List.append_assoc] at same
  cases interfaces : style.interfaces with
  | true =>
    rw [interfaces] at same
    have apart : Text.Apart (beforeName true) "export type " := by decide
    exact apart.append_ne _ _ same
  | false =>
    rw [interfaces] at same
    obtain ⟨_, opened⟩ := Text.word_append_inj
      (isWord_of_isTypeName (@fields_allow style _ passes).1) (Text.isWord_of_isIdentifier named)
      (endsWord_afterName _ _) (Text.endsWord_equals _)
      (@List.append_cancel_left _ ("export type " : Text) _ _ same)
    -- where an alias has an expression, the declaration of an object has a brace
    obtain ⟨c, first, start⟩ := head_typeOf passes' (";" ++ r')
    rw [← @List.append_cancel_left _ (" = " : Text) _ _ opened] at first
    cases first
    revert start
    decide

theorem legible_block (unrenamed : style.camelKeys = false) (named : style.rootName.isIdentifier)
    {d : Declared} (allowed : (blockScript style).allows d) : (blockScript style).Legible d := by
  intro e allowed' r r' _ _ same
  cases d with
  | object a =>
    cases e with
    | object b =>
      obtain ⟨looks, rest⟩ := object_append_inj unrenamed allowed allowed' same
      exact ⟨congrArg Declared.object looks, rest⟩
    | root t => exact absurd same (alias_append_ne unrenamed named allowed allowed'.1)
  | root s =>
    cases e with
    | object b => exact absurd same.symm (alias_append_ne unrenamed named allowed' allowed.1)
    | root t =>
      simp only [blockScript, List.append_assoc, List.append_cancel_left_eq] at same
      obtain ⟨⟨looks, _⟩, rest⟩ := @expression_append_inj s t _ _ false false allowed.1 allowed'.1
        (absurd rfl) (Json.startsIn_cons (by decide) _) (Json.startsIn_cons (by decide) _) same
      exact ⟨congrArg Declared.root looks, (List.cons.inj rest).2⟩

theorem document_eq (s : Shape) :
    document style s = Text.joined "\n\n" (s.declared.map (blockScript style).write) ++ "\n" := by
  rw [document, Text.ofBlocks, Shape.declared, List.map_append, List.map_map, rootAlias]
  cases s.isObject <;> rfl

theorem continues_blocks (style : Style) :
    ((blockScript style).after "\n\n").Continues (· = ("\n" : Text)) where
  between _ _ := trivial
  last _ _ := trivial
  apart d t stops := by
    cases (List.cons.inj stops).2

/-- A document shows what it declares: two shapes with the same document declare the same. -/
theorem sameDeclarations_of_types (unrenamed : style.camelKeys = false)
    (named : style.rootName.isIdentifier) (passes : s.all tellable) (passes' : t.all tellable)
    (same : document style s = document style t) : SameDeclarations id false s t := by
  rw [document_eq, document_eq] at same
  exact sameDeclarations_of_brief (Script.joined_append_inj (continues_blocks style)
    (fun d member => legible_block unrenamed named (Shape.declared_passes passes d member))
    (Shape.declared_passes passes') s.declared_ne_nil t.declared_ne_nil rfl rfl same).1

def taggedDay : Shape :=
  .object "Root" [
    ⟨"day", .date, true, true⟩,
    ⟨"all tags", .array (.union [.string, .object "Tag" [⟨"id", .number, false, false⟩]]), false, false⟩]

def taggedText : Shape :=
  .object "Root" [
    ⟨"day", .string, true, true⟩,
    ⟨"all tags", .array (.union [.string, .object "Tag" [⟨"id", .number, false, false⟩]]), false, false⟩]

theorem sameDeclarations_of_types_tagged :
    document {} taggedDay = document {} taggedText ∧ SameDeclarations id false taggedDay taggedText := by
  have same : document {} taggedDay = document {} taggedText := by cbv
  exact ⟨same, sameDeclarations_of_types rfl (by decide) (by decide) (by decide) same⟩

/-- A document does not tell a pair of surrogates from the code point that it stands for. -/
theorem types_splitPair :
    (oneKey splitPair).all tellable ∧ (oneKey joinedPair).all tellable ∧
      document {} (oneKey splitPair) = document {} (oneKey joinedPair) ∧
      (oneKey splitPair).declarationOrder.map (fun r => r.properties.map (·.key)) ≠
        (oneKey joinedPair).declarationOrder.map (fun r => r.properties.map (·.key)) := by
  have same : document {} (oneKey splitPair) = document {} (oneKey joinedPair) := by decide +kernel
  exact ⟨by decide, by decide, same, keys_splitPair⟩

end TypeScript

end JsonShape
