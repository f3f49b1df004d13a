import JsonShape.Document.Example
import JsonShape.Proofs.Legibility
import JsonShape.Proofs.Outcome
import JsonShape.Proofs.Rendering

/-! Example values.

An example is the literal of a value that belongs to the shape. Null stands only where the shape or the
property admits it, and every other property has the value of its own shape, however many nullable ones are
passed over before it. Only a union without variants has no value to show.
-/

set_option autoImplicit false

namespace JsonShape

/-- A value as it is written in an example. The members of an object have their names as written. -/
inductive Literal where
  | undefined
  | null
  | boolean (b : Bool)
  | number (n : Int)
  | string (s : Text)
  | array (elements : List Literal)
  | object (members : List (Text × Literal))

namespace Literal

def line (depth : Nat) (name value : Text) : Text :=
  Example.indent (depth + 1) ++ name ++ ": " ++ value ++ ","

def block (depth : Nat) (lines : List Text) : Text :=
  if lines.isEmpty then "\x7b\x7d"
  else "\x7b\n" ++ Text.joined "\n" lines ++ "\n" ++ Example.indent depth ++ "\x7d"

mutual

def write (depth : Nat) : Literal → Text
  | .undefined => "undefined"
  | .null => "null"
  | .boolean b => if b then "true" else "false"
  | .number n => Text.ofInt n
  | .string s => s.quoted
  | .array elements => "[" ++ Text.joined ", " (writeElements depth elements) ++ "]"
  | .object members => block depth (writeMembers depth members)

def writeElements (depth : Nat) : List Literal → List Text
  | [] => []
  | w :: rest => write depth w :: writeElements depth rest

def writeMembers (depth : Nat) : List (Text × Literal) → List Text
  | [] => []
  | (name, w) :: rest => line depth name (write (depth + 1) w) :: writeMembers depth rest

end

theorem writeMembers_eq (depth : Nat) (members : List (Text × Literal)) :
    writeMembers depth members = members.map fun m => line depth m.1 (m.2.write (depth + 1)) := by
  induction members with
  | nil => rfl
  | cons m rest ih => rw [writeMembers, ih, List.map_cons]

/-- A literal belongs to a shape. An object has every property once, in order and under the name the style
gives it, and null under a nullable one or a value of its shape. -/
inductive BelongsTo (style : Style) : Literal → Shape → Prop where
  | string (s : Text) : BelongsTo style (.string s) .string
  | date {s : Text} (dated : s.isDate) : BelongsTo style (.string s) .date
  | number (n : Int) : BelongsTo style (.number n) .number
  | boolean (b : Bool) : BelongsTo style (.boolean b) .boolean
  | null : BelongsTo style .null .null
  | unknown (w : Literal) : BelongsTo style w .unknown
  | array {elements : List Literal} {element : Shape} (each : ∀ w ∈ elements, BelongsTo style w element) :
      BelongsTo style (.array elements) (.array element)
  | union {variants : List Shape} {s : Shape} {w : Literal} (among : s ∈ variants)
      (belongs : BelongsTo style w s) : BelongsTo style w (.union variants)
  | object {name : Text} {properties : List (Property Shape)} {members : List (Text × Literal)}
      (named : members.map (·.1) = properties.map (style.keyName ·.key))
      (each : ∀ p m, (p, m) ∈ properties.zip members → ¬ (m.2 = .null ∧ p.nullable) →
        BelongsTo style m.2 p.shape) : BelongsTo style (.object members) (.object name properties)

inductive Plain : Literal → Prop where
  | undefined : Plain .undefined
  | null : Plain .null
  | no : Plain (.boolean false)
  | zero : Plain (.number 0)
  | string (s : Text) : Plain (.string s)
  | single {w : Literal} (element : Plain w) : Plain (.array [w])
  | object {members : List (Text × Literal)} (each : ∀ m ∈ members, Plain m.2) : Plain (.object members)

end Literal

namespace Shape

theorem all_inside {test : Shape → Bool} {s t : Shape} (passes : s.all test) (inside : t ∈ s.inside) :
    t.all test :=
  (all_iff.1 passes).2 t inside

def hasVariants : Shape → Bool
  | .union variants => !variants.isEmpty
  | _ => true

theorem union_ne_nil {variants : List Shape} (filled : (union variants).all hasVariants) : variants ≠ [] := by
  have here := (all_iff.1 filled).1
  simpa [hasVariants] using here

theorem mem_of_representative {variants : List Shape} {s : Shape}
    (shown : representative? variants = some s) : s ∈ variants := by
  rcases Option.or_eq_some_iff.1 shown with other | ⟨_, head⟩
  · exact List.mem_of_find?_eq_some other
  · exact List.mem_of_head? head

theorem exists_representative {variants : List Shape} (some : variants ≠ []) :
    ∃ s ∈ variants, representative? variants = .some s := by
  obtain ⟨first, rest, rfl⟩ := List.exists_cons_of_ne_nil some
  obtain ⟨s, found⟩ : ∃ s, representative? (first :: rest) = .some s := by
    rw [representative?]
    cases (first :: rest).find? (!·.isNull) with
    | some s => exact ⟨s, Option.some_or⟩
    | none => exact ⟨first, Option.none_or⟩
  exact ⟨s, mem_of_representative found, found⟩

/-- The variant that is shown is the first other than null, or null. -/
theorem find?_of_representative {α : Type} (f : Shape → α) {variants : List Shape} {s : Shape}
    (shown : representative? variants = some s) :
    ((variants.find? (!·.isNull)).map f).getD (f .null) = f s := by
  rw [representative?] at shown
  cases found : variants.find? (!·.isNull) with
  | some t =>
    rw [found, Option.some_or] at shown
    cases shown
    rfl
  | none =>
    -- the first variant is shown, and it is null like all others
    rw [found, Option.none_or] at shown
    have null : s.isNull := by simpa using List.find?_eq_none.1 found s (List.mem_of_head? shown)
    cases s <;> cases null
    rfl

theorem shown_of_hasVariants {s : Shape} (filled : s.all hasVariants) : s.showsEmptyUnion = false := by
  induction s with
  | array element ih => exact ih (all_inside filled List.mem_cons_self)
  | union variants ih =>
    have inner := representative_shown fun s member => ih s member (all_inside filled member)
    rw [showsEmptyUnion, inner, Bool.or_false, List.isEmpty_eq_false_iff]
    exact union_ne_nil filled
  | object name properties ih =>
    exact properties_shown fun p member => ih p member (all_inside filled (List.mem_map_of_mem member))
  | _ => rfl

end Shape

namespace Example

variable (style : Style)

/-! ## The value -/

def timestamp : Text := "2025-01-01T00:00:00.000Z"

mutual

def literal : Shape → Literal
  | .string => .string []
  | .number => .number 0
  | .boolean => .boolean false
  | .null => .null
  | .date => .string timestamp
  | .unknown => .undefined
  | .array element => .array [literal element]
  | .union variants => literalOfVariants variants
  | .object _ properties => .object (literalMembers properties)

def literalOfVariants : List Shape → Literal
  | [] => .null
  | s :: rest => if s.isNull then literalOfVariants rest else literal s

def literalMembers : List (Property Shape) → List (Text × Literal)
  | [] => []
  | p :: rest =>
    (style.keyName p.key, if p.nullable then .null else literal p.shape) :: literalMembers rest

end

theorem literalMembers_eq (properties : List (Property Shape)) :
    literalMembers style properties =
      properties.map fun p => (style.keyName p.key, if p.nullable then .null else literal style p.shape) := by
  induction properties with
  | nil => rfl
  | cons p rest ih => rw [literalMembers, ih, List.map_cons]

theorem literalOfVariants_eq (variants : List Shape) :
    literalOfVariants style variants =
      ((variants.find? (!·.isNull)).map (literal style)).getD .null := by
  induction variants with
  | nil => rfl
  | cons s rest ih =>
    rw [literalOfVariants, List.find?_cons]
    cases s.isNull with
    | true => exact ih
    | false => rfl

theorem literal_union {variants : List Shape} {s : Shape} (shown : Shape.representative? variants = some s) :
    literal style (.union variants) = literal style s := by
  rw [literal, literalOfVariants_eq]
  exact Shape.find?_of_representative (literal style) shown

/-! ## The text of the value -/

theorem valueOf_eq (s : Shape) (depth : Nat) :
    valueOf style s depth =
      write style s depth ((children s depth).map fun child => valueOf style child.1 child.2) := by
  simp only [valueOf, Dialect.render_eq]
  exact (dialect style).compose_eq s depth

theorem valueOf_union {variants : List Shape} {s : Shape} (shown : Shape.representative? variants = some s)
    (depth : Nat) : valueOf style (.union variants) depth = valueOf style s depth := by
  rw [valueOf_eq, children, shown]
  rfl

/-- The texts of the properties that are not nullable are taken in turn, so each property has its own. -/
theorem lines_eq (depth : Nat) (value : Shape → Text) (properties : List (Property Shape)) :
    lines style depth properties ((properties.filter (!·.nullable)).map fun p => value p.shape) =
      properties.map fun p =>
        Literal.line depth (style.keyName p.key) (if p.nullable then "null" else value p.shape) := by
  induction properties with
  | nil => rfl
  | cons p rest ih =>
    rw [lines, List.map_cons]
    cases nullable : p.nullable with
    | true => rw [List.filter_cons_of_neg (by simp [nullable]), ih]; rfl
    | false =>
      rw [List.filter_cons_of_pos (by simp [nullable]), List.map_cons, List.tail_cons, ih]
      rfl

theorem valueOf_object (name : Text) (properties : List (Property Shape)) (depth : Nat) :
    valueOf style (.object name properties) depth =
      Literal.block depth (properties.map fun p =>
        Literal.line depth (style.keyName p.key)
          (if p.nullable then "null" else valueOf style p.shape (depth + 1))) := by
  have parts : (children (.object name properties) depth).map (fun c => valueOf style c.1 c.2) =
      (properties.filter (!·.nullable)).map fun p => valueOf style p.shape (depth + 1) := by
    simp only [children, List.map_map, Function.comp_def]
  rw [valueOf_eq, parts, write, lines_eq style depth fun s => valueOf style s (depth + 1)]
  cases properties <;> rfl

theorem quoted_timestamp : timestamp.quoted = ("\"2025-01-01T00:00:00.000Z\"" : Text) := by cbv

theorem isDate_timestamp : timestamp.isDate := by decide

/-- The example is written as the value, at any depth. -/
theorem valueOf_eq_write {s : Shape} (filled : s.all Shape.hasVariants) (depth : Nat) :
    valueOf style s depth = (literal style s).write depth := by
  induction s generalizing depth with
  | string => rw [valueOf_eq]; rfl
  | number => rw [valueOf_eq]; rfl
  | boolean => rw [valueOf_eq]; rfl
  | null => rw [valueOf_eq]; rfl
  | unknown => rw [valueOf_eq]; rfl
  | date =>
    rw [valueOf_eq, literal, Literal.write, quoted_timestamp]
    rfl
  | array element ih =>
    rw [valueOf_eq, literal, Literal.write, Literal.writeElements, Literal.writeElements, Text.joined,
      List.intercalate_singleton, ← ih (Shape.all_inside filled List.mem_cons_self)]
    rfl
  | union variants ih =>
    obtain ⟨s, member, shown⟩ := Shape.exists_representative (Shape.union_ne_nil filled)
    rw [valueOf_union style shown, literal_union style shown]
    exact ih s member (Shape.all_inside filled member) depth
  | object name properties ih =>
    rw [valueOf_object, literal, Literal.write, Literal.writeMembers_eq, literalMembers_eq, List.map_map]
    refine congrArg (Literal.block depth) (List.map_congr_left fun p member => ?_)
    rw [ih p member (Shape.all_inside filled (List.mem_map_of_mem member))]
    dsimp only [Function.comp_apply]
    split <;> rfl

/-! ## The value belongs to the shape -/

theorem literal_belongsTo {s : Shape} (filled : s.all Shape.hasVariants) :
    (literal style s).BelongsTo style s := by
  induction s with
  | string => exact .string []
  | number => exact .number 0
  | boolean => exact .boolean false
  | null => exact .null
  | unknown => exact .unknown .undefined
  | date => exact .date isDate_timestamp
  | array element ih =>
    exact .array (List.forall_mem_singleton.2 (ih (Shape.all_inside filled List.mem_cons_self)))
  | union variants ih =>
    obtain ⟨s, member, shown⟩ := Shape.exists_representative (Shape.union_ne_nil filled)
    rw [literal_union style shown]
    exact .union member (ih s member (Shape.all_inside filled member))
  | object name properties ih =>
    rw [literal, literalMembers_eq]
    refine .object (by rw [List.map_map]; rfl) fun p m paired other => ?_
    -- a property is paired with the member made from it
    rw [← List.map_prod_left_eq_zip, List.mem_map] at paired
    obtain ⟨q, member, same⟩ := paired
    cases same
    cases nullable : p.nullable with
    | true => exact absurd ⟨if_pos nullable, nullable⟩ other
    | false =>
      dsimp only
      rw [if_neg Bool.false_ne_true]
      exact ih p member (Shape.all_inside filled (List.mem_map_of_mem member))

theorem literalOfVariants_plain {variants : List Shape} (each : ∀ s ∈ variants, (literal style s).Plain) :
    (literalOfVariants style variants).Plain := by
  rw [literalOfVariants_eq]
  cases found : variants.find? (!·.isNull) with
  | none => exact .null
  | some s => exact each s (List.mem_of_find?_eq_some found)

theorem literal_plain (s : Shape) : (literal style s).Plain := by
  induction s with
  | string => exact .string []
  | number => exact .zero
  | boolean => exact .no
  | null => exact .null
  | unknown => exact .undefined
  | date => exact .string timestamp
  | array element ih => exact .single ih
  | union variants ih => exact literalOfVariants_plain style ih
  | object name properties ih =>
    rw [literal, literalMembers_eq]
    refine .object (List.forall_mem_map.2 fun p member => ?_)
    dsimp only
    split
    · exact .null
    · exact ih p member

/-- An example shows a value of the shape. -/
structure Shows (s : Shape) (w : Literal) : Prop where
  shown : s.showsEmptyUnion = false
  written : ∀ depth, valueOf style s depth = w.write depth
  belongs : w.BelongsTo style s
  plain : w.Plain

theorem exists_shows {s : Shape} (filled : s.all Shape.hasVariants) : ∃ w, Shows style s w :=
  ⟨literal style s, Shape.shown_of_hasVariants filled, valueOf_eq_write style filled,
    literal_belongsTo style filled, literal_plain style s⟩

def tangled : Shape := .object "Root" [
  ⟨"first_name", .union [.null, .union [.null, .null], .string], false, false⟩,
  ⟨"last_name", .string, true, true⟩,
  ⟨"seen-at", .array (.union [.null, .union [.date, .null]]), true, false⟩,
  ⟨"owner", .object "RootOwner" [], false, true⟩,
  ⟨"tags", .union [.null, .object "RootTags" [⟨"a", .number, false, true⟩, ⟨"b", .unknown, false, false⟩]],
    false, false⟩]

theorem exists_shows_tangled :
    tangled.all Shape.hasVariants ∧ ∃ w, Shows { camelKeys := true } tangled w := by
  have filled : tangled.all Shape.hasVariants := by decide
  exact ⟨filled, exists_shows { camelKeys := true } filled⟩

example : literal { camelKeys := true } tangled = .object [
    ("firstName", .null), ("lastName", .null), ("\"seen-at\"", .array [.string "2025-01-01T00:00:00.000Z"]),
    ("owner", .null), ("tags", .object [("a", .null), ("b", .undefined)])] := by cbv

end Example

end JsonShape
