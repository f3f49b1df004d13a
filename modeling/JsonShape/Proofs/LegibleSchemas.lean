import JsonShape.Proofs.Legibility
import JsonShape.Proofs.Numerals
import JsonShape.Proofs.PropertyKeys
import JsonShape.Proofs.Rendering

/-! Schemas can be read off their document.

An expression is the constant of an object or a call whose method tells the kind of node, and the call
encloses what is inside. Dates are told from strings only where they are checked. So a document shows which
objects are declared and how, with objects by their constants, and for any shape at all: unions may be nested,
have one variant or none.
-/

set_option autoImplicit false

namespace JsonShape

open Json (StartsIn)

/-! ## Constants -/

theorem CodePoint.isIdentifierPart_lower {c : CodePoint} (part : c.isIdentifierPart) :
    ∀ d ∈ c.lower, d.isIdentifierPart :=
  forall_part (p := fun c => ∀ d ∈ c.lower, d.isIdentifierPart) (by decide +kernel) part

theorem Text.isWord_schemaName {name : Text} (named : name.isIdentifier) : name.schemaName.IsWord := by
  have word := isWord_of_isIdentifier named
  have suffix : IsWord "Schema" := by
    rw [IsWord]
    decide
  rw [schemaName]
  cases name with
  | nil => exact suffix
  | cons c rest =>
    intro d member
    rcases List.mem_append.1 member with lowered | late
    · rcases List.mem_append.1 lowered with first | later
      · exact CodePoint.isIdentifierPart_lower (word c List.mem_cons_self) d first
      · exact word d (List.mem_cons_of_mem c later)
    · exact suffix d late

namespace Zod

variable {style : Style} {s t : Shape} {r r' : Text}

/-- Whether the constant of a node, if it has one, is an identifier. -/
def tellable : Shape → Bool
  | .object name _ => name.isIdentifier
  | _ => true

/-! ## Expressions -/

def method : Shape → Text
  | .string | .date => "string"
  | .number => "number"
  | .boolean => "boolean"
  | .null => "null"
  | .unknown => "unknown"
  | .array _ => "array"
  | .union _ => "union"
  | .object _ _ => "object"

def arguments (style : Style) : Shape → Text
  | .date => "()" ++ if style.checksDates then (".datetime()" : Text) else []
  | .array element => "(" ++ (schemaOf style element ++ ")")
  | .union variants => "([" ++ (Text.joined ", " (variants.map (schemaOf style)) ++ "])")
  | _ => ("()" : Text)

def plain : Shape → Bool
  | .number | .boolean | .null | .unknown => true
  | _ => false

theorem eq_of_method (alone : plain s) (methods : method s = method t) : s = t := by
  cases s <;> cases alone
  all_goals
    cases t <;> first | rfl | exact absurd methods (by simp only [method]; decide)

theorem isWord_method (s : Shape) : (method s).IsWord := by
  rw [Text.IsWord]
  cases s <;> simp only [method] <;> decide

theorem endsWord_arguments (s : Shape) (t : Text) : (arguments style s ++ t).EndsWord := by
  intro c first
  cases s <;> cases first <;> decide

theorem schemaOf_call (notObject : s.isObject = false) :
    schemaOf style s = "z." ++ (method s ++ arguments style s) := by
  cases s with
  | array element => rw [schemaOf_array, List.append_assoc]; rfl
  | union variants => rw [schemaOf_union, List.append_assoc]; rfl
  | object name properties => cases notObject
  | date =>
    rw [schemaOf_eq, write, arguments]
    cases style.checksDates <;> rfl
  | _ => exact schemaOf_eq style _

/-- What may follow an expression: no part of a word, and no check of dates. -/
def schemaEnds : Text := [')', ']', ',', ';', '.']

structure EndsSchema (t : Text) : Prop where
  starts : StartsIn schemaEnds t
  unchecked : ¬ (".datetime()" : Text) <+: t

theorem endsSchema_of_ne {c : CodePoint} (member : c ∈ schemaEnds) (ordinary : c ≠ '.') (t : Text) :
    EndsSchema (c :: t) where
  starts := Json.startsIn_cons member t
  unchecked starts := ordinary (List.cons_prefix_cons.1 starts).1.symm

def schemaScript (style : Style) : Script Shape Shape where
  write := schemaOf style
  look := Shape.brief Text.schemaName style.checksDates
  allows s := s.all tellable
  ends := EndsSchema

theorem EndsSchema.endsWord (ends : EndsSchema r) : r.EndsWord := by
  have others : ∀ c ∈ schemaEnds, c.isIdentifierPart = false := by decide
  exact fun c first => others c (ends.starts c first)

/-- The constant of an object is no call. -/
theorem schemaName_append_ne {name : Text} (named : name.isIdentifier) (ends : r.EndsWord) :
    name.schemaName ++ r ≠ "z." ++ r' := by
  intro same
  have word : Text.IsWord "z" := by
    rw [Text.IsWord]
    decide
  have point : Text.EndsWord ("." ++ r') := Text.endsWord_cons (by decide) _
  have constant := (Text.word_append_inj (Text.isWord_schemaName named) word ends point same).1
  have length := congrArg List.length constant
  rw [Text.schemaName, List.length_append] at length
  have six : (Text.ofString "Schema").length = 6 := rfl
  have one : (Text.ofString "z").length = 1 := rfl
  omega

theorem head_schemaOf (passes : s.all tellable) (t : Text) :
    ∃ c ∈ (schemaOf style s ++ t).head?, c.isIdentifierPart := by
  cases object : s.isObject with
  | false =>
    rw [schemaOf_call object]
    exact ⟨'z', rfl, rfl⟩
  | true =>
    cases s with
    | object name properties =>
      rw [schemaOf_object]
      have word := Text.isWord_schemaName (Shape.all_iff.1 passes).1
      cases constant : name.schemaName with
      | nil =>
        exact absurd constant (List.append_ne_nil_of_right_ne_nil _ (List.cons_ne_nil _ _))
      | cons c rest =>
        rw [constant] at word
        exact ⟨c, rfl, word c List.mem_cons_self⟩
    | _ => cases object

def checksDate (style : Style) : Shape → Bool
  | .date => style.checksDates
  | _ => false

theorem arguments_text (text : method s = "string") :
    arguments style s = "()" ++ (if checksDate style s then (".datetime()" : Text) else []) ∧
      s.brief Text.schemaName style.checksDates = if checksDate style s then .date else .string := by
  cases s with
  | string => exact ⟨rfl, rfl⟩
  | date => exact ⟨rfl, rfl⟩
  | _ => exact absurd text (by simp only [method]; decide)

theorem continues_schemas (style : Style) :
    ((schemaScript style).after ", ").Continues fun t => ("]" : Text) <+: t where
  between s t := endsSchema_of_ne (by decide) (by decide) _
  last t stops := by
    obtain ⟨u, rfl⟩ := stops
    exact endsSchema_of_ne (by decide) (by decide) _
  apart s t stops := by
    simp only [Script.after, List.append_assoc] at stops
    exact Text.Apart.not_prefix (by decide) _ stops

theorem variants_append_inj {variants others : List Shape}
    (legible : ∀ v ∈ variants, (schemaScript style).Legible v) (passes : ∀ v ∈ variants, v.all tellable)
    (passes' : ∀ v ∈ others, v.all tellable)
    (same : Text.joined ", " (variants.map (schemaOf style)) ++ ("])" ++ r) =
      Text.joined ", " (others.map (schemaOf style)) ++ ("])" ++ r')) :
    variants.map (Shape.brief Text.schemaName style.checksDates) =
      others.map (Shape.brief Text.schemaName style.checksDates) ∧ r = r' := by
  have none {v : Shape} (passes : v.all tellable) (rest : List Shape) (r r' : Text) :
      "])" ++ r ≠ Text.joined ", " ((v :: rest).map (schemaOf style)) ++ r' := by
    intro same
    rw [List.map_cons, Text.joined_cons, List.append_assoc] at same
    obtain ⟨c, first, part⟩ : ∃ c ∈ ("])" ++ r : Text).head?, c.isIdentifierPart := by
      rw [same]
      exact head_schemaOf passes _
    cases first
    revert part
    decide
  cases variants with
  | nil =>
    cases others with
    | nil => exact ⟨rfl, @List.append_cancel_left _ ("])" : Text) _ _ same⟩
    | cons w others => exact absurd same (none (passes' w List.mem_cons_self) others _ _)
  | cons v variants =>
    cases others with
    | nil => exact absurd same.symm (none (passes v List.mem_cons_self) variants _ _)
    | cons w others =>
      obtain ⟨looks, rest⟩ := Script.joined_append_inj (continues_schemas style) legible passes'
        (List.cons_ne_nil v variants) (List.cons_ne_nil w others) ⟨")" ++ r, rfl⟩ ⟨")" ++ r', rfl⟩ same
      exact ⟨looks, @List.append_cancel_left _ ("])" : Text) _ _ rest⟩

/-- What calls of the same method enclose, and what follows them. -/
theorem arguments_append_inj (legible : ∀ u ∈ s.inside, (schemaScript style).Legible u)
    (passes : s.all tellable) (passes' : t.all tellable) (notObject : s.isObject = false)
    (ends : EndsSchema r) (ends' : EndsSchema r') (methods : method s = method t)
    (same : arguments style s ++ r = arguments style t ++ r') :
    s.brief Text.schemaName style.checksDates = t.brief Text.schemaName style.checksDates ∧ r = r' := by
  have texts (text : method s = "string") (text' : method t = "string") :
      s.brief Text.schemaName style.checksDates = t.brief Text.schemaName style.checksDates ∧ r = r' := by
    obtain ⟨written, looks⟩ := @arguments_text style s text
    obtain ⟨written', looks'⟩ := @arguments_text style t text'
    rw [written, written', List.append_assoc, List.append_assoc] at same
    obtain ⟨dates, rest⟩ := Text.optional_append_inj ends.unchecked ends'.unchecked
      (List.append_cancel_left same)
    exact ⟨by rw [looks, looks', dates], rest⟩
  cases s with
  | string => exact texts rfl methods.symm
  | date => exact texts rfl methods.symm
  | array element =>
    cases t with
    | array other =>
      simp only [arguments, List.append_assoc, List.append_cancel_left_eq] at same
      obtain ⟨looks, rest⟩ := legible element List.mem_cons_self other
        ((Shape.all_iff.1 passes').2 other List.mem_cons_self) _ _
        (endsSchema_of_ne (by decide) (by decide) _) (endsSchema_of_ne (by decide) (by decide) _) same
      exact ⟨congrArg Shape.array looks, (List.cons.inj rest).2⟩
    | _ => exact absurd methods (by simp only [method]; decide)
  | union variants =>
    cases t with
    | union others =>
      simp only [arguments, List.append_assoc, List.append_cancel_left_eq] at same
      obtain ⟨looks, rest⟩ := variants_append_inj legible (Shape.all_iff.1 passes).2
        (Shape.all_iff.1 passes').2 same
      exact ⟨by rw [Shape.brief_union, Shape.brief_union]; exact congrArg Shape.union looks, rest⟩
    | _ => exact absurd methods (by simp only [method]; decide)
  | object name properties => cases notObject
  | number | boolean | null | unknown =>
    cases eq_of_method rfl methods
    exact ⟨rfl, List.append_cancel_left same⟩

theorem legible_schema (passes : s.all tellable) : (schemaScript style).Legible s := by
  induction s using Shape.inside_induction with
  | node s ih =>
    intro t passes' r r' ends ends' same
    change schemaOf style s ++ r = schemaOf style t ++ r' at same
    -- an object is written as its constant and any other node as a call
    cases object : s.record? with
    | none =>
      have notObject := Shape.isObject_of_record? object
      cases object' : t.record? with
      | none =>
        rw [schemaOf_call notObject, schemaOf_call (Shape.isObject_of_record? object')] at same
        simp only [List.append_assoc, List.append_cancel_left_eq] at same
        obtain ⟨methods, rest⟩ := Text.word_append_inj (isWord_method s) (isWord_method t)
          (endsWord_arguments s r) (endsWord_arguments t r') same
        exact arguments_append_inj (fun u member => ih u member ((Shape.all_iff.1 passes).2 u member)) passes
          passes' notObject ends ends' methods rest
      | some b =>
        rw [Shape.record?_eq_some] at object'
        subst object'
        rw [schemaOf_call notObject, Record.toShape, schemaOf_object, List.append_assoc] at same
        exact absurd same.symm (schemaName_append_ne (Shape.all_iff.1 passes').1 ends'.endsWord)
    | some a =>
      rw [Shape.record?_eq_some] at object
      subst object
      have constant := Text.isWord_schemaName (Shape.all_iff.1 passes).1
      cases object' : t.record? with
      | none =>
        rw [schemaOf_call (Shape.isObject_of_record? object'), Record.toShape, schemaOf_object,
          List.append_assoc] at same
        exact absurd same (schemaName_append_ne (Shape.all_iff.1 passes).1 ends.endsWord)
      | some b =>
        rw [Shape.record?_eq_some] at object'
        subst object'
        rw [Record.toShape, Record.toShape, schemaOf_object, schemaOf_object] at same
        obtain ⟨names, rest⟩ := Text.word_append_inj constant
          (Text.isWord_schemaName (Shape.all_iff.1 passes').1) ends.endsWord ends'.endsWord same
        refine ⟨?_, rest⟩
        change Shape.object a.name.schemaName [] = Shape.object b.name.schemaName []
        rw [names]

/-! ## Properties -/

def fieldScript (style : Style) : Script (Property Shape) (Property Shape) where
  write := field style
  look := Property.brief Text.schemaName style.checksDates
  allows p := p.shape.all tellable
  ends _ := True

def modifiers (nullable optional : Bool) : Text :=
  (if nullable then (".nullable()" : Text) else []) ++
    ((if optional then (".optional()" : Text) else []) ++ ",\n")

theorem endsSchema_modifiers (nullable optional : Bool) (t : Text) :
    EndsSchema (modifiers nullable optional ++ t) where
  starts := by
    cases nullable <;> cases optional <;> exact Json.startsIn_cons (by decide) _
  unchecked := by
    cases nullable <;> cases optional <;> exact Text.Apart.not_prefix (by decide) t

theorem modifiers_append_inj {nullable nullable' optional optional' : Bool}
    (same : modifiers nullable optional ++ r = modifiers nullable' optional' ++ r') :
    nullable = nullable' ∧ optional = optional' ∧ r = r' := by
  simp only [modifiers, List.append_assoc] at same
  have noOptional (t : Text) : ¬ (".optional()" : Text) <+: ",\n" ++ t :=
    Text.Apart.not_prefix (by decide) t
  have noNullable (optional : Bool) (t : Text) :
      ¬ (".nullable()" : Text) <+: (if optional then (".optional()" : Text) else []) ++ (",\n" ++ t) := by
    cases optional
    · exact Text.Apart.not_prefix (by decide) t
    · exact Text.Apart.not_prefix (by decide) (",\n" ++ t)
  obtain ⟨nullables, later⟩ := Text.optional_append_inj (noNullable optional r)
    (noNullable optional' r') same
  obtain ⟨optionals, rest⟩ := Text.optional_append_inj (noOptional r) (noOptional r') later
  exact ⟨nullables, optionals, List.append_cancel_left rest⟩

theorem legible_field {p : Property Shape} (passes : p.shape.all tellable) :
    (fieldScript style).Legible p := by
  intro q passes' r r' _ _ same
  change field style p ++ r = field style q ++ r' at same
  have written (p : Property Shape) : field style p =
      "  " ++ (p.key.propertyKey ++ (": " ++ (schemaOf style p.shape ++ modifiers p.nullable p.optional))) := by
    simp only [field_eq, beforeSchema, afterSchema, modifiers, List.append_assoc]
  have ends (t : Text) : Text.EndsWord (": " ++ t) := Text.endsWord_cons (by decide) _
  simp only [written, List.append_assoc, List.append_cancel_left_eq] at same
  obtain ⟨keys, typed⟩ := Text.propertyKey_append_inj (ends _) (ends _) same
  obtain ⟨looks, modified⟩ := legible_schema passes q.shape passes' _ _ (endsSchema_modifiers _ _ r)
    (endsSchema_modifiers _ _ r') (@List.append_cancel_left _ (": " : Text) _ _ typed)
  obtain ⟨nullables, optionals, rest⟩ := modifiers_append_inj modified
  refine ⟨?_, rest⟩
  change Property.brief _ _ p = Property.brief _ _ q
  change p.shape.brief _ _ = q.shape.brief _ _ at looks
  rw [Property.brief, Property.brief, keys, looks, optionals, nullables]

/-! ## Documents -/

def blockScript (style : Style) : Script Declared Declared where
  write
    | .object r => block style r
    | .root s => "export const " ++ style.rootName.schemaName ++ " = " ++ schemaOf style s ++ ";"
  look := Declared.brief Text.schemaName style.checksDates
  allows := Declared.Passes tellable
  ends _ := True

theorem continues_fields (style : Style) :
    (fieldScript style).Continues fun t => ("\x7d" : Text) <+: t where
  between _ _ := trivial
  last _ _ := trivial
  apart p t stops := by
    change _ <+: field style p ++ t at stops
    simp only [field_eq, beforeSchema, List.append_assoc] at stops
    exact Text.Apart.not_prefix (by decide) _ stops

def closing (strict : Bool) : Text := if strict then "\x7d).strict();" else "\x7d);"

theorem block_closing (r : Record) :
    block style r = "export const " ++ (r.name.schemaName ++ (" = " ++ ("z.object(\x7b\n" ++
      (r.properties.flatMap (field style) ++ closing style.strict)))) := by
  simp only [block, closing, List.append_assoc]
  rfl

theorem starts_closing (strict : Bool) (t : Text) : ("\x7d" : Text) <+: closing strict ++ t := by
  cases strict
  · exact ⟨");" ++ t, rfl⟩
  · exact ⟨").strict();" ++ t, rfl⟩

theorem object_append_inj {a b : Record} (passes : a.toShape.all tellable)
    (passes' : b.toShape.all tellable) (same : block style a ++ r = block style b ++ r') :
    a.brief Text.schemaName style.checksDates = b.brief Text.schemaName style.checksDates ∧ r = r' := by
  obtain ⟨named, inner⟩ := Shape.all_iff.1 passes
  obtain ⟨named', inner'⟩ := Shape.all_iff.1 passes'
  simp only [block_closing, List.append_assoc, List.append_cancel_left_eq] at same
  obtain ⟨names, opened⟩ := Text.word_append_inj (Text.isWord_schemaName named)
    (Text.isWord_schemaName named') (Text.endsWord_equals _) (Text.endsWord_equals _) same
  obtain ⟨properties, closed⟩ := Script.flatMap_append_inj (continues_fields style)
    (fun p member => legible_field (inner p.shape (List.mem_map_of_mem member)))
    (fun p member => inner' p.shape (List.mem_map_of_mem member)) (starts_closing _ r)
    (starts_closing _ r')
    (List.append_cancel_left (@List.append_cancel_left _ (" = " : Text) _ _ opened))
  refine ⟨?_, List.append_cancel_left closed⟩
  rw [Record.brief, Record.brief, names]
  exact congrArg _ properties

/-- The schema of a root is no declaration of an object. -/
theorem rootSchema_append_ne (named : style.rootName.isIdentifier) {a : Record}
    (passes : a.toShape.all tellable) (notObject : s.isObject = false) :
    block style a ++ r ≠
      "export const " ++ style.rootName.schemaName ++ " = " ++ schemaOf style s ++ ";" ++ r' := by
  intro same
  have call : Text.ofString "z.object(\x7b\n" = "z." ++ ("object" ++ ("(\x7b\n" : Text)) := rfl
  rw [block_closing, schemaOf_call notObject, call] at same
  simp only [List.append_assoc, List.append_cancel_left_eq] at same
  obtain ⟨_, opened⟩ := Text.word_append_inj (Text.isWord_schemaName (Shape.all_iff.1 passes).1)
    (Text.isWord_schemaName named) (Text.endsWord_equals _) (Text.endsWord_equals _) same
  simp only [List.append_cancel_left_eq] at opened
  -- no other node has the method of objects
  have bracket (t : Text) : Text.EndsWord ("(\x7b\n" ++ t) := Text.endsWord_cons (by decide) _
  obtain ⟨methods, _⟩ := Text.word_append_inj (isWord_method (.object [] [])) (isWord_method s)
    (bracket _) (endsWord_arguments s _) opened
  cases s with
  | object name properties => cases notObject
  | _ => exact absurd methods (by simp only [method]; decide)

theorem legible_block (named : style.rootName.isIdentifier) {d : Declared} (passes : d.Passes tellable) :
    (blockScript style).Legible d := by
  intro e passes' r r' _ _ same
  cases d with
  | object a =>
    cases e with
    | object b =>
      obtain ⟨looks, rest⟩ := object_append_inj passes passes' same
      exact ⟨congrArg Declared.object looks, rest⟩
    | root t => exact absurd same (rootSchema_append_ne named passes passes'.2)
  | root s =>
    cases e with
    | object b => exact absurd same.symm (rootSchema_append_ne named passes' passes.2)
    | root t =>
      simp only [blockScript, List.append_assoc, List.append_cancel_left_eq] at same
      obtain ⟨looks, rest⟩ := legible_schema passes.1 t passes'.1 _ _
        (endsSchema_of_ne (by decide) (by decide) _) (endsSchema_of_ne (by decide) (by decide) _) same
      exact ⟨congrArg Declared.root looks, (List.cons.inj rest).2⟩

def ending (style : Style) : Text := "\n\n" ++ (rootType style ++ "\n")

theorem document_eq (s : Shape) :
    document style s = ("import \x7b z \x7d from \"zod\";" : Text) ++
      (s.declared.flatMap ((blockScript style).after "\n\n").write ++ ending style) := by
  have declarations : s.declarationOrder.map (block style) ++ rootSchema style s =
      s.declared.map (blockScript style).write := by
    rw [Shape.declared, List.map_append, List.map_map, rootSchema]
    cases s.isObject <;> rfl
  rw [document, Text.ofBlocks, List.cons_append, List.cons_append, declarations, Text.joined_cons,
    List.flatMap_append, List.flatMap_map, List.flatMap_singleton, ending]
  simp only [List.append_assoc, Script.after]

theorem continues_blocks (style : Style) :
    ((blockScript style).after "\n\n").Continues (· = ending style) where
  between _ _ := trivial
  last _ _ := trivial
  apart d t stops := by
    obtain ⟨rest, written⟩ : ∃ rest, (blockScript style).write d = "export const " ++ rest := by
      cases d with
      | object r => exact ⟨_, block_closing r⟩
      | root s =>
        refine ⟨style.rootName.schemaName ++ " = " ++ schemaOf style s ++ ";", ?_⟩
        simp only [blockScript, List.append_assoc]
    have apart : Text.Apart "export const " "export type " := by decide
    simp only [Script.after, written, ending, rootType, List.append_assoc, List.append_cancel_left_eq] at stops
    exact apart.append_ne _ _ stops

/-- A document shows what it declares: two shapes with the same document declare the same. -/
theorem sameDeclarations_of_schemas (named : style.rootName.isIdentifier) (passes : s.all tellable)
    (passes' : t.all tellable) (same : document style s = document style t) :
    SameDeclarations Text.schemaName style.checksDates s t := by
  rw [document_eq, document_eq] at same
  exact sameDeclarations_of_brief (Script.flatMap_append_inj (continues_blocks style)
    (fun d member => (legible_block named (Shape.declared_passes passes d member)).after _)
    (Shape.declared_passes passes') rfl rfl (List.append_cancel_left same)).1

def upperDays : Shape :=
  .array (.union [.union [], .object "Item" [⟨"start_day", .date, true, false⟩]])

def lowerTexts : Shape :=
  .array (.union [.union [], .object "item" [⟨"start_day", .string, true, false⟩]])

theorem sameDeclarations_of_schemas_lowered :
    document {} upperDays = document {} lowerTexts ∧
      SameDeclarations Text.schemaName false upperDays lowerTexts := by
  have same : document {} upperDays = document {} lowerTexts := by decide +kernel
  exact ⟨same, sameDeclarations_of_schemas (by decide) (by decide) (by decide) same⟩

/-- A document does not tell a pair of surrogates from the code point that it stands for. -/
theorem schemas_splitPair :
    (oneKey splitPair).all tellable ∧ (oneKey joinedPair).all tellable ∧
      document {} (oneKey splitPair) = document {} (oneKey joinedPair) ∧
      (oneKey splitPair).declarationOrder.map (fun r => r.properties.map (·.key)) ≠
        (oneKey joinedPair).declarationOrder.map (fun r => r.properties.map (·.key)) := by
  have same : document {} (oneKey splitPair) = document {} (oneKey joinedPair) := by decide +kernel
  exact ⟨by decide, by decide, same, keys_splitPair⟩

end Zod

end JsonShape
