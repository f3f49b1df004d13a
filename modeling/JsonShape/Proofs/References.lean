import JsonShape.Proofs.DeclarationOrder
import JsonShape.Proofs.Outline
import JsonShape.Proofs.Rendering
import JsonShape.Proofs.SchemaNames

/-! References in documents.

An expression is made of fixed words, brackets and separators around names, and the names are those of the
nearest objects inside the shape. A document is a list of declarations with such expressions in it, and
whatever name one of them uses is declared by an earlier one.
-/

set_option autoImplicit false

namespace JsonShape

/-! ## Expressions -/

structure Forms where
  words : List Text
  brackets : List (Text × Text)
  separator : Text

/-- A text is an expression, and these are the names in it from left to right. -/
inductive Forms.Reads (f : Forms) : List Text → Text → Prop where
  | word {word : Text} (known : word ∈ f.words) : Reads f [] word
  | name (name : Text) : Reads f [name] name
  | bracketed {names : List Text} {inside before after : Text} (known : (before, after) ∈ f.brackets)
      (expression : Reads f names inside) : Reads f names (before ++ inside ++ after)
  | separated (parts : List (List Text × Text)) (each : ∀ part ∈ parts, Reads f part.1 part.2) :
      Reads f (parts.flatMap (·.1)) (Text.joined f.separator (parts.map (·.2)))

theorem Forms.reads_separated {α : Type} {f : Forms} {items : List α} {names : α → List Text}
    {text : α → Text} (each : ∀ a ∈ items, f.Reads (names a) (text a)) :
    f.Reads (items.flatMap names) (Text.joined f.separator (items.map text)) := by
  have parts : ∀ part ∈ items.map fun a => (names a, text a), f.Reads part.1 part.2 :=
    List.forall_mem_map.2 each
  have read := Reads.separated _ parts
  rwa [List.flatMap_map, List.map_map] at read

namespace Shape

mutual

/-- The names of the objects that a shape refers to: the nearest ones inside, or the shape itself. -/
def references : Shape → List Text
  | .array element => references element
  | .union variants => variantReferences variants
  | .object name _ => [name]
  | _ => []

def variantReferences : List Shape → List Text
  | [] => []
  | s :: rest => references s ++ variantReferences rest

end

theorem references_union (variants : List Shape) :
    (union variants).references = variants.flatMap references := by
  rw [references]
  induction variants with
  | nil => rfl
  | cons s rest ih => rw [variantReferences, ih, List.flatMap_cons]

end Shape

def Record.references (r : Record) : List Text := r.properties.flatMap (·.shape.references)

structure Declaration where
  name : Text
  uses : List Text
  text : Text

/-- Whatever name a declaration uses is declared by an earlier one. -/
def Declaration.Ordered (declarations : List Declaration) : Prop :=
  ∀ before d after, declarations = before ++ d :: after → ∀ name ∈ d.uses, ∃ e ∈ before, e.name = name

namespace TypeScript

def forms : Forms where
  words := ["string", "number", "boolean", "null", "unknown"]
  brackets := [("", "[]"), ("(", ")[]")]
  separator := " | "

theorem typeOf_reads (s : Shape) : forms.Reads s.references (typeOf s) := by
  induction s with
  | array element ih =>
    rw [typeOf_array]
    split
    · exact .bracketed (by simp [forms]) ih
    · have bare : forms.Reads element.references (Text.ofString "" ++ typeOf element ++ "[]") :=
        .bracketed (by simp [forms]) ih
      exact bare
  | union variants ih =>
    rw [typeOf_union, Shape.references_union]
    exact Forms.reads_separated ih
  | object name properties => rw [typeOf_object]; exact .name name
  | _ => rw [typeOf_eq]; exact .word (by simp [forms, write])

def blockWith (style : Style) (r : Record) (types : List Text) : Text :=
  let opening : Text :=
    if style.interfaces then "export interface " ++ r.name ++ " \x7b\n"
    else "export type " ++ r.name ++ " = \x7b\n"
  let closing : Text := if style.interfaces then "\x7d" else "\x7d;"
  let fields := List.zipWith (fun p type => beforeType style p ++ type ++ afterType p) r.properties types
  mappings style r ++ opening ++ fields.flatten ++ closing

theorem block_eq (style : Style) (r : Record) :
    block style r = blockWith style r (r.properties.map (typeOf ·.shape)) := by
  have fields : r.properties.map (field style) =
      r.properties.map fun p => beforeType style p ++ typeOf p.shape ++ afterType p :=
    List.map_congr_left fun p _ => field_eq style p
  simp only [block, blockWith, List.zipWith_map_right, List.zipWith_self, List.flatMap_def, fields]

inductive Uses (style : Style) : List Text → Text → Prop where
  | object (r : Record) (types : List (List Text × Text)) (each : ∀ type ∈ types, forms.Reads type.1 type.2)
      (complete : types.length = r.properties.length) :
      Uses style (types.flatMap (·.1)) (blockWith style r (types.map (·.2)))
  | alias {names : List Text} {type : Text} (read : forms.Reads names type) :
      Uses style names ("export type " ++ style.rootName ++ " = " ++ type ++ ";")

theorem block_uses (style : Style) (r : Record) : Uses style r.references (block style r) := by
  have uses := @Uses.object style r
    (r.properties.map fun p => (p.shape.references, typeOf p.shape))
    (List.forall_mem_map.2 fun p _ => typeOf_reads p.shape) (List.length_map _)
  rw [List.flatMap_map, List.map_map] at uses
  rw [block_eq]
  exact uses

end TypeScript

namespace Zod

def forms : Forms where
  words := ["z.string()", "z.string().datetime()", "z.number()", "z.boolean()", "z.null()", "z.unknown()"]
  brackets := [("z.array(", ")"), ("z.union([", "])")]
  separator := ", "

theorem schemaOf_reads (style : Style) (s : Shape) :
    forms.Reads (s.references.map Text.schemaName) (schemaOf style s) := by
  induction s with
  | array element ih =>
    rw [schemaOf_array]
    exact .bracketed (by simp [forms]) ih
  | union variants ih =>
    rw [schemaOf_union, Shape.references_union, List.map_flatMap]
    exact .bracketed (by simp [forms]) (Forms.reads_separated ih)
  | object name properties => rw [schemaOf_object]; exact .name name.schemaName
  | date =>
    rw [schemaOf_eq]
    refine .word ?_
    rw [write]
    split <;> simp [forms]
  | _ => rw [schemaOf_eq]; exact .word (by simp [forms, write])

def blockWith (style : Style) (r : Record) (schemas : List Text) : Text :=
  let closing : Text := if style.strict then "\x7d).strict();" else "\x7d);"
  let fields := List.zipWith (fun p schema => beforeSchema p ++ schema ++ afterSchema p) r.properties schemas
  "export const " ++ r.name.schemaName ++ " = z.object(\x7b\n" ++ fields.flatten ++ closing

theorem block_eq (style : Style) (r : Record) :
    block style r = blockWith style r (r.properties.map (schemaOf style ·.shape)) := by
  have fields : r.properties.map (field style) =
      r.properties.map fun p => beforeSchema p ++ schemaOf style p.shape ++ afterSchema p :=
    List.map_congr_left fun p _ => field_eq style p
  simp only [block, blockWith, List.zipWith_map_right, List.zipWith_self, List.flatMap_def, fields]

inductive Uses (style : Style) : List Text → Text → Prop where
  | object (r : Record) (schemas : List (List Text × Text))
      (each : ∀ schema ∈ schemas, forms.Reads schema.1 schema.2)
      (complete : schemas.length = r.properties.length) :
      Uses style (schemas.flatMap (·.1)) (blockWith style r (schemas.map (·.2)))
  | root {constants : List Text} {schema : Text} (read : forms.Reads constants schema) :
      Uses style constants ("export const " ++ style.rootName.schemaName ++ " = " ++ schema ++ ";")

theorem block_uses (style : Style) (r : Record) :
    Uses style (r.references.map Text.schemaName) (block style r) := by
  have uses := @Uses.object style r
    (r.properties.map fun p => (p.shape.references.map Text.schemaName, schemaOf style p.shape))
    (List.forall_mem_map.2 fun p _ => schemaOf_reads style p.shape) (List.length_map _)
  rw [List.flatMap_map, List.map_map] at uses
  rw [block_eq, Record.references, List.map_flatMap]
  exact uses

end Zod

/-! ## Names declared before they are used -/

namespace Shape

theorem references_found {s : Shape} {name : Text} (used : name ∈ s.references) :
    ∃ r ∈ s.preorder, r.name = name := by
  induction s with
  | array element ih =>
    obtain ⟨r, found, same⟩ := ih used
    exact ⟨r, found, same⟩
  | union variants ih =>
    rw [references_union, List.mem_flatMap] at used
    obtain ⟨t, member, used⟩ := used
    obtain ⟨r, found, same⟩ := ih t member used
    rw [preorder, preorderVariants_eq]
    exact ⟨r, List.mem_flatMap.2 ⟨t, member, found⟩, same⟩
  | object own properties =>
    rw [references, List.mem_singleton] at used
    exact ⟨⟨own, properties⟩, by simp [preorder], used.symm⟩
  | _ => cases used

/-- Every name that an object refers to is that of a later one. -/
def Grounded : List Record → Prop
  | [] => True
  | r :: later => (∀ name ∈ r.references, ∃ e ∈ later, e.name = name) ∧ Grounded later

theorem grounded_append {records more : List Record} (first : Grounded records)
    (second : Grounded more) : Grounded (records ++ more) := by
  induction records with
  | nil => exact second
  | cons r later ih =>
    refine ⟨fun name used => ?_, ih first.2⟩
    obtain ⟨e, member, same⟩ := first.1 name used
    exact ⟨e, List.mem_append_left more member, same⟩

theorem grounded_flatMap {shapes : List Shape} (each : ∀ t ∈ shapes, Grounded t.preorder) :
    Grounded (shapes.flatMap preorder) := by
  induction shapes with
  | nil => trivial
  | cons s rest ih =>
    rw [List.flatMap_cons]
    exact grounded_append (each s List.mem_cons_self)
      (ih fun t member => each t (List.mem_cons_of_mem s member))

theorem grounded_preorder (s : Shape) : Grounded s.preorder := by
  induction s using inside_induction with
  | node s ih =>
    rw [preorder_eq]
    cases object : s.record? with
    | none => exact grounded_flatMap ih
    | some r =>
      refine ⟨fun name used => ?_, grounded_flatMap ih⟩
      obtain ⟨p, member, used⟩ := List.mem_flatMap.1 used
      obtain ⟨e, found, same⟩ := references_found used
      rw [record?_eq_some.1 object]
      exact ⟨e, List.mem_flatMap.2 ⟨p.shape, List.mem_map_of_mem member, found⟩, same⟩

theorem Grounded.later {records before after : List Record} {r : Record} (grounded : Grounded records)
    (split : records = before ++ r :: after) : ∀ name ∈ r.references, ∃ e ∈ after, e.name = name := by
  subst split
  induction before with
  | nil => exact grounded.1
  | cons first rest ih => exact ih grounded.2

end Shape

namespace Declaration

def all (declare : Record → Declaration) (root : Declaration) (s : Shape) : List Declaration :=
  s.declarationOrder.map declare ++ if s.isObject then [] else [root]

section

variable {declare : Record → Declaration} {constant : Text → Text}
  (named : ∀ r, (declare r).name = constant r.name)
  (uses : ∀ r, (declare r).uses = r.references.map constant)

include named uses

/-- Objects are declared in order, whatever constants stand for their names. -/
theorem ordered_objects (s : Shape) : Ordered (s.declarationOrder.map declare) := by
  intro before d after split name used
  obtain ⟨earlier, rest, order, rfl, tail⟩ := List.map_eq_append_iff.1 split
  obtain ⟨r, later, rfl, rfl, rfl⟩ := List.map_eq_cons_iff.1 tail
  rw [uses, List.mem_map] at used
  obtain ⟨reference, used, rfl⟩ := used
  -- in preorder the objects declared earlier come after this one
  have reversed : s.preorder = later.reverse ++ r :: earlier.reverse := by
    rw [Shape.declarationOrder, Shape.records_eq, List.reverse_eq_iff] at order
    simpa using order
  obtain ⟨e, member, same⟩ := (Shape.grounded_preorder s).later reversed reference used
  exact ⟨declare e, List.mem_map_of_mem (List.mem_reverse.1 member), by rw [named, same]⟩

omit uses in
theorem references_declared {s : Shape} {name : Text} (used : name ∈ s.references.map constant) :
    ∃ d ∈ s.declarationOrder.map declare, d.name = name := by
  obtain ⟨reference, reached, rfl⟩ := List.mem_map.1 used
  obtain ⟨r, found, same⟩ := Shape.references_found reached
  have listed : r ∈ s.declarationOrder := by
    rwa [Shape.declarationOrder, List.mem_reverse, Shape.records_eq]
  exact ⟨declare r, List.mem_map_of_mem listed, by rw [named, same]⟩

theorem ordered_all {root : Declaration} {s : Shape}
    (rootUses : root.uses = s.references.map constant) : Ordered (all declare root s) := by
  have objects := ordered_objects named uses s
  rw [all]
  split
  · rwa [List.append_nil]
  · intro before d after split name used
    rcases List.eq_nil_or_concat after with rfl | ⟨rest, last, rfl⟩
    · obtain ⟨rfl, same⟩ := List.append_inj' split rfl
      cases same
      rw [rootUses] at used
      exact references_declared named used
    · rw [List.concat_eq_append, ← List.cons_append, ← List.append_assoc] at split
      obtain ⟨same, _⟩ := List.append_inj' split rfl
      exact objects before d rest same name used

end

theorem map_text_all (declare : Record → Declaration) (root : Declaration) (s : Shape) :
    (all declare root s).map (·.text) =
      s.declarationOrder.map (declare · |>.text) ++ if s.isObject then [] else [root.text] := by
  rw [all, List.map_append, List.map_map]
  split <;> rfl

theorem forall_mem_all {declare : Record → Declaration} {root : Declaration} {s : Shape}
    {good : Declaration → Prop} (objects : ∀ r, good (declare r)) (last : good root) :
    ∀ d ∈ all declare root s, good d := by
  rw [all, List.forall_mem_append, List.forall_mem_map]
  refine ⟨fun r _ => objects r, ?_⟩
  split
  · exact fun d never => by cases never
  · exact List.forall_mem_singleton.2 last

end Declaration

namespace TypeScript

def DeclaresFirst (style : Style) (s : Shape) : Prop :=
  ∃ declarations : List Declaration,
    document style s = Text.ofBlocks (declarations.map (·.text)) ∧
      (∀ d ∈ declarations, Declares d.name d.text ∧ Uses style d.uses d.text) ∧
      Declaration.Ordered declarations

theorem alias_declares (style : Style) (s : Shape) :
    Declares style.rootName ("export type " ++ style.rootName ++ " = " ++ typeOf s ++ ";") := by
  have declares : Declares style.rootName _ := .type [] (typeOf s ++ ";")
  simpa using declares

theorem declaresFirst (style : Style) (s : Shape) : DeclaresFirst style s := by
  refine ⟨Declaration.all (fun r => ⟨r.name, r.references, block style r⟩)
    ⟨style.rootName, s.references, "export type " ++ style.rootName ++ " = " ++ typeOf s ++ ";"⟩ s,
    ?_, ?_, ?_⟩
  · rw [Declaration.map_text_all]
    rfl
  · exact Declaration.forall_mem_all (fun r => ⟨block_declares style r, block_uses style r⟩)
      ⟨alias_declares style s, .alias (typeOf_reads s)⟩
  · exact @Declaration.ordered_all _ id (fun r => rfl) (fun r => by simp) _ _ (by simp)

end TypeScript

namespace Zod

/-- A document is a list of declarations between the import and the type of the root. Every constant is
declared before it is used, the one of the root included. -/
def DeclaresFirst (style : Style) (s : Shape) : Prop :=
  ∃ declarations : List Declaration,
    document style s = Text.ofBlocks (("import \x7b z \x7d from \"zod\";" : Text) ::
        declarations.map (·.text) ++ [rootType style]) ∧
      (∀ d ∈ declarations, Declares d.name d.text ∧ Uses style d.uses d.text) ∧
      Declaration.Ordered declarations ∧ ∃ d ∈ declarations, d.name = style.rootName.schemaName

theorem rootSchema_declares (style : Style) (s : Shape) :
    Declares style.rootName.schemaName
      ("export const " ++ style.rootName.schemaName ++ " = " ++ schemaOf style s ++ ";") := by
  have declares : Declares style.rootName.schemaName _ := .schema (schemaOf style s ++ ";")
  simpa using declares

theorem declaresFirst {style : Style} {s : Shape}
    (root : ∀ r, s.record? = some r → r.name = style.rootName) : DeclaresFirst style s := by
  refine ⟨Declaration.all
    (fun r => ⟨r.name.schemaName, r.references.map Text.schemaName, block style r⟩)
    ⟨style.rootName.schemaName, s.references.map Text.schemaName,
      "export const " ++ style.rootName.schemaName ++ " = " ++ schemaOf style s ++ ";"⟩ s, ?_, ?_, ?_, ?_⟩
  · rw [Declaration.map_text_all]
    rfl
  · exact Declaration.forall_mem_all (fun r => ⟨block_declares style r, block_uses style r⟩)
      ⟨rootSchema_declares style s, .root (schemaOf_reads style s)⟩
  · exact Declaration.ordered_all (fun r => rfl) (fun r => rfl) rfl
  · rw [Declaration.all]
    cases object : s.record? with
    | none =>
      rw [if_neg (Bool.eq_false_iff.1 (Shape.isObject_of_record? object))]
      exact ⟨_, List.mem_append_right _ List.mem_cons_self, rfl⟩
    | some r =>
      have listed : r ∈ s.declarationOrder := by
        rw [Shape.declarationOrder, List.mem_reverse, Shape.records_eq, Shape.preorder_eq, object]
        exact List.mem_cons_self
      exact ⟨_, List.mem_append_left _ (List.mem_map_of_mem listed), by rw [root r object]⟩

end Zod

namespace Inference

open Json (Value)

theorem name_root {o : Options} {v : Value} {r : Record} (object : (infer o v).shape.record? = some r) :
    r.name = o.rootName := by
  have known := infer_unnamed o v
  have image : (infer o v).shape.unnamed.record? = some r.unnamed := by
    rw [Shape.record?_unnamed, object]
    rfl
  rw [known] at image
  cases v with
  | object members =>
    rw [shape_object_root] at object
    cases object
    rfl
  | string s =>
    rw [outline] at image
    split at image <;> cases image
  | _ => cases image

/-- Objects are declared from the inside out: in every shape each object once and behind all objects inside
it, and in the documents of an inferred shape each name before it is used. -/
theorem declaredBeforeUse :
    (∀ s : Shape, s.DeclaredInOrder s.objectAddresses.reverse) ∧
      ∀ (o : Options) (v : Value) (style : Style),
        TypeScript.DeclaresFirst { style with rootName := o.rootName } (infer o v).shape ∧
          Zod.DeclaresFirst { style with rootName := o.rootName } (infer o v).shape :=
  ⟨Shape.declaredInOrder, fun _ _ _ => ⟨TypeScript.declaresFirst _ _, Zod.declaresFirst fun _ => name_root⟩⟩

end Inference

end JsonShape
