import JsonShape.Proofs.Congruence
import JsonShape.Proofs.DistinctKeys
import JsonShape.Proofs.NormalForm

/-! Shapes with dates read as strings.

Where a union held a date next to a string, the two fall together, so unions are built anew from the inside
out. Merging commutes with this, and it keeps the very same shapes: the first of a class is also the first
of the wider class that it falls into.
-/

set_option autoImplicit false

namespace JsonShape

namespace Shape

mutual

/-- The shape with every date turned into a string and every union merged again. -/
def undated : Shape → Shape
  | .date => .string
  | .array element => .array (undated element)
  | .union variants => merge (undatedAll variants)
  | .object name properties => .object name (undatedProperties properties)
  | s => s

def undatedAll : List Shape → List Shape
  | [] => []
  | s :: rest => undated s :: undatedAll rest

def undatedProperties : List (Property Shape) → List (Property Shape)
  | [] => []
  | p :: rest => { p with shape := undated p.shape } :: undatedProperties rest

end

end Shape

def Property.undated (p : Property Shape) : Property Shape := { p with shape := p.shape.undated }

@[simp] theorem Property.undated_shape (p : Property Shape) : p.undated.shape = p.shape.undated := rfl

@[simp] theorem Property.undated_key (p : Property Shape) : p.undated.key = p.key := rfl

@[simp] theorem Property.undated_optional (p : Property Shape) : p.undated.optional = p.optional := rfl

@[simp] theorem Property.undated_nullable (p : Property Shape) : p.undated.nullable = p.nullable := rfl

def Record.undated (r : Record) : Record := ⟨r.name, r.properties.map Property.undated⟩

namespace Shape

theorem undatedAll_eq (shapes : List Shape) : undatedAll shapes = shapes.map undated := by
  induction shapes with
  | nil => rfl
  | cons s rest ih => rw [undatedAll, ih, List.map_cons]

theorem undatedProperties_eq (properties : List (Property Shape)) :
    undatedProperties properties = properties.map Property.undated := by
  induction properties with
  | nil => rfl
  | cons p rest ih => rw [undatedProperties, ih, List.map_cons, Property.undated]

@[simp] theorem undated_array (element : Shape) :
    undated (.array element) = .array element.undated := rfl

@[simp] theorem undated_union (variants : List Shape) :
    undated (.union variants) = merge (variants.map undated) := by
  rw [undated, undatedAll_eq]

@[simp] theorem undated_object (name : Text) (properties : List (Property Shape)) :
    undated (.object name properties) = .object name (properties.map Property.undated) := by
  rw [undated, undatedProperties_eq]

@[simp] theorem isObject_undated {s : Shape} (single : s.isUnion = false) :
    s.undated.isObject = s.isObject := by
  cases s with
  | union variants => cases single
  | _ => rfl

theorem isUnion_undated {s : Shape} (single : s.isUnion = false) : s.undated.isUnion = false := by
  cases s with
  | union variants => cases single
  | _ => rfl

theorem isNull_undated {s : Shape} (single : s.isUnion = false) : s.undated.isNull = s.isNull := by
  cases s with
  | union variants => cases single
  | _ => rfl

theorem isUnknown_undated {s : Shape} (single : s.isUnion = false) :
    s.undated.isUnknown = s.isUnknown := by
  cases s with
  | union variants => cases single
  | _ => rfl

theorem record?_undated {s : Shape} (single : s.isUnion = false) :
    s.undated.record? = s.record?.map Record.undated := by
  cases s with
  | union variants => cases single
  | object name properties => rw [undated_object]; rfl
  | _ => rfl

theorem find?_undated (properties : List (Property Shape)) (key : Text) :
    find? (properties.map Property.undated) key = (find? properties key).map Property.undated := by
  rw [find?, List.find?_map]
  rfl

theorem map_key_undated (properties : List (Property Shape)) :
    (properties.map Property.undated).map (·.key) = properties.map (·.key) := by
  simp only [List.map_map, Function.comp_def, Property.undated_key]

theorem keysDistinct_undated {s : Shape} (distinct : s.keysDistinct) : s.undated.keysDistinct := by
  induction s with
  | array element ih => exact ih distinct
  | union variants ih =>
    rw [undated_union]
    refine keysDistinct_merge (List.forall_mem_map.2 fun t member => ?_)
    exact ih t member (keysDistinct_union.1 distinct t member)
  | object name properties ih =>
    obtain ⟨once, inner⟩ := keysDistinct_object.1 distinct
    rw [undated_object, keysDistinct_object, map_key_undated, List.forall_mem_map]
    exact ⟨once, fun p member => ih p member (inner p member)⟩
  | _ => exact distinct

theorem Equal.undated {a b : Shape} (equal : a.Equal b) : a.undated.Equal b.undated := by
  refine ⟨keysDistinct_undated equal.first, keysDistinct_undated equal.second, ?_⟩
  obtain ⟨first, second, equal⟩ := equal
  have agree := childPairs?_isSome_of_same equal
  induction a generalizing b with
  | array element ih =>
    cases b with
    | array other =>
      rw [same_array] at equal
      exact (same_array _ _).2 (ih first second equal (childPairs?_isSome_of_same equal))
    | _ => cases agree
  | union as ih =>
    cases b with
    | union bs =>
      rw [undated_union, undated_union]
      have each := (same_union as bs).1 equal
      refine (respected_equal.merge (List.forall₂_iff_zip.2 ⟨?_, fun {a b} paired => ?_⟩)).same
      · rw [List.length_map, List.length_map, each.length_eq]
      · rw [List.zip_map, List.mem_map] at paired
        obtain ⟨⟨a, b⟩, paired, placed⟩ := paired
        cases placed
        have among := List.of_mem_zip paired
        have inner := List.forall₂_zip each paired
        have distinct := keysDistinct_union.1 first a among.1
        have distinct' := keysDistinct_union.1 second b among.2
        exact ⟨keysDistinct_undated distinct, keysDistinct_undated distinct',
          ih a among.1 distinct distinct' inner (childPairs?_isSome_of_same inner)⟩
    | _ => cases agree
  | object n ps ih =>
    cases b with
    | object m qs =>
      obtain ⟨keys, inner⟩ := (same_object n m ps qs).1 equal
      rw [undated_object, undated_object, same_object]
      refine ⟨?_, List.forall_mem_map.2 fun p member q found => ?_⟩
      · rw [sameKeys_iff, map_key_undated, map_key_undated]
        exact sameKeys_iff.1 keys
      · rw [Property.undated_key, find?_undated, Option.map_eq_some_iff] at found
        obtain ⟨q, found, rfl⟩ := found
        have equal := inner p member q found
        exact ih p member ((keysDistinct_object.1 first).2 p member)
          ((keysDistinct_object.1 second).2 q (mem_of_find? found)) equal
          (childPairs?_isSome_of_same equal)
    | _ => cases agree
  | _ =>
    cases b <;> cases agree
    exact same_refl rfl

theorem undated_unnamed (s : Shape) : s.undated.unnamed = s.unnamed.undated := by
  induction s with
  | array element ih => exact congrArg array ih
  | union variants ih =>
    rw [undated_union, unnamed_union, undated_union, ← merge_unnamed, List.map_map, List.map_map]
    exact congrArg merge (List.map_congr_left ih)
  | object name properties ih =>
    rw [undated_object, unnamed_object, unnamed_object, undated_object, List.map_map, List.map_map]
    refine congrArg (object []) (List.map_congr_left fun p member => ?_)
    simp only [Function.comp_apply, Property.unnamed, Property.undated, ih p member]
  | _ => rfl

/-! ## Merging -/

theorem choices_of_single {shapes : List Shape} (single : ∀ s ∈ shapes, s.isUnion = false) :
    choices shapes = distinct (preferKnown shapes) := by
  rw [choices, flatten_eq, flatMap_leaves_of_single single, preferKnown_distinct]

/-- Shapes that may stand under a key or in an array of a sample: single, with every key listed once. -/
structure Sampled (s : Shape) : Prop where
  single : s.isUnion = false
  distinct : s.keysDistinct

section

variable {shapes : List Shape} (sampled : ∀ s ∈ shapes, s.Sampled)

include sampled

theorem choices_undated :
    choices ((choices shapes).map undated) = choices (shapes.map undated) := by
  have single : ∀ s ∈ shapes, s.isUnion = false := fun s member => (sampled s member).single
  have among : ∀ s ∈ choices shapes, s ∈ shapes := (choices_sublist_of_single single).subset
  have image : ∀ s ∈ shapes.map undated, s.isUnion = false :=
    List.forall_mem_map.2 fun s member => isUnion_undated (single s member)
  have image' : ∀ s ∈ (choices shapes).map undated, s.isUnion = false :=
    List.forall_mem_map.2 fun s member => isUnion_undated (single s (among s member))
  have equal : ∀ a ∈ preferKnown shapes, ∀ b ∈ preferKnown shapes, same a b →
      same a.undated b.undated := by
    intro a first b second equal
    have known := (preferKnown_sublist shapes).subset
    exact (Equal.undated ⟨(sampled a (known first)).distinct, (sampled b (known second)).distinct,
      equal⟩).same
  calc choices ((choices shapes).map undated)
      = distinct (preferKnown ((choices shapes).map undated)) := choices_of_single image'
    _ = distinct ((preferKnown (choices shapes)).map undated) := by
        rw [preferKnown_map fun s member => isUnknown_undated (single s (among s member))]
    _ = distinct ((distinct (preferKnown shapes)).map undated) := by
        rw [choices_of_single single, preferKnown_distinct, preferKnown_preferKnown]
    _ = distinct ((preferKnown shapes).map undated) := distinct_map_distinct equal
    _ = distinct (preferKnown (shapes.map undated)) := by
        rw [preferKnown_map fun s member => isUnknown_undated (single s member)]
    _ = choices (shapes.map undated) := (choices_of_single image).symm

/-- It makes no difference whether dates become strings before or after shapes are merged. -/
theorem merge_undated : (merge shapes).undated = merge (shapes.map undated) := by
  have single : ∀ s ∈ shapes, s.isUnion = false := fun s member => (sampled s member).single
  by_cases some : shapes = []
  · rw [some]
    rfl
  · obtain ⟨s, member⟩ := List.exists_mem_of_ne_nil shapes some
    have image := merge_of_mem (List.mem_map_of_mem (f := undated) member)
    rw [image, ← choices_undated sampled, merge_of_mem member]
    have nonempty : choices shapes ≠ [] :=
      choices_ne_nil (by rwa [flatMap_leaves_of_single single])
    match chosen : choices shapes with
    | [] => exact absurd chosen nonempty
    | [only] =>
      have among : only ∈ shapes := (choices_sublist_of_single single).subset (by simp [chosen])
      exact (merge_singleton (isUnion_undated (single only among))).symm
    | first :: second :: rest =>
      rw [ofVariants, undated_union]
      · rfl
      · simp

end

end Shape

/-! ## Merging objects -/

structure Property.Sampled (p : Property Shape) : Prop where
  shape : p.shape.Sampled
  notNull : p.shape.isNull = false

namespace Record

theorem keys_undated (r : Record) : r.undated.keys = r.keys :=
  Shape.map_key_undated r.properties

theorem seen_undated (records : List Record) (key : Text) :
    seen (records.map undated) key = (seen records key).map Property.undated := by
  simp only [seen, List.filterMap_map, List.map_filterMap, Function.comp_def, undated,
    Shape.find?_undated]

variable {records : List Record} (sampled : ∀ r ∈ records, ∀ p ∈ r.properties, p.Sampled)

include sampled

theorem seen_sampled {key : Text} {p : Property Shape} (member : p ∈ seen records key) : p.Sampled := by
  obtain ⟨r, among, found⟩ := mem_seen.1 member
  exact sampled r among p (mem_of_find? found)

theorem mergedProperty_undated (key : Text) :
    mergedProperty (records.map undated) key = (mergedProperty records key).undated := by
  have each : ∀ s ∈ (seen records key).map (·.shape), s.Sampled ∧ s.isNull = false :=
    List.forall_mem_map.2 fun p member =>
      ⟨(seen_sampled sampled member).shape, (seen_sampled sampled member).notNull⟩
  have shapes : ((seen records key).map Property.undated).map (·.shape) =
      ((seen records key).map (·.shape)).map Shape.undated := by
    simp only [List.map_map, Function.comp_def, Property.undated_shape]
  have split := Shape.splitNull_merge (fun s member => (each s member).1.single)
    fun s member => (each s member).2
  have split' : (Shape.merge (((seen records key).map (·.shape)).map Shape.undated)).splitNull =
      (Shape.merge (((seen records key).map (·.shape)).map Shape.undated), false) := by
    apply Shape.splitNull_merge
    · exact List.forall_mem_map.2 fun s member => Shape.isUnion_undated (each s member).1.single
    · refine List.forall_mem_map.2 fun s member => ?_
      rw [Shape.isNull_undated (each s member).1.single, (each s member).2]
  rw [mergedProperty_eq, mergedProperty_eq, seen_undated, shapes, split', split,
    ← Shape.merge_undated fun s member => (each s member).1]
  simp only [Property.undated, List.length_map, List.any_map, Function.comp_def]

theorem merge_undated (name : Text) :
    merge (records.map undated) name = (merge records name).undated := by
  match records with
  | [] => rfl
  | [r] => rfl
  | first :: second :: rest =>
    have properties := mergedProperty_undated sampled
    have keysKept : ((first :: second :: rest).map undated).flatMap keys =
        (first :: second :: rest).flatMap keys := by
      simp only [List.flatMap_map, keys_undated]
    rw [List.map_cons, List.map_cons, merge_several, ← List.map_cons, ← List.map_cons, keysKept,
      merge_several, undated, List.map_map]
    congr 1
    exact List.map_congr_left fun key _ => properties key

end Record

end JsonShape
