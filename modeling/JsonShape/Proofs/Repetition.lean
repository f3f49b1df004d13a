import JsonShape.Proofs.ArrayOfObjects
import JsonShape.Proofs.SameObjects

/-! Elements that come again.

An element that is in an array already adds nothing to the shape of the array. Its shape may have drawn
other names by then, but it is equal to the first one and gives way to it. A merged object gets no new key
from it, and no key that it lacks. So one object and several are merged alike, although a single one is not
merged at all.
-/

set_option autoImplicit false

namespace JsonShape

open Json (Value)

theorem flatMap_subset_flatMap {α β : Type} {as bs : List α} (f : α → List β) (among : as ⊆ bs) :
    as.flatMap f ⊆ bs.flatMap f := by
  intro b member
  obtain ⟨a, listed, here⟩ := List.mem_flatMap.1 member
  exact List.mem_flatMap.2 ⟨a, among listed, here⟩

namespace Shape

variable {shapes again : List Shape}

theorem distinct_append_of_subset (keyed : ∀ s ∈ shapes, s.keysDistinct) (among : again ⊆ shapes) :
    distinct (shapes ++ again) = distinct shapes := by
  induction again using List.reverseRecOn with
  | nil => rw [List.append_nil]
  | append_singleton before s ih =>
    obtain ⟨earlier, last⟩ := List.append_subset.1 among
    have member : s ∈ shapes := last (List.mem_singleton_self s)
    have known : (distinct shapes).any (same · s) := by
      rw [any_distinct, List.any_eq_true]
      exact ⟨s, member, same_refl (keyed s member)⟩
    rw [← List.append_assoc, distinct_concat, ih earlier, if_pos known]

theorem choices_repeated (keyed : ∀ s ∈ shapes, s.keysDistinct) (among : again ⊆ shapes)
    (rest : List Shape) : choices (shapes ++ again ++ rest) = choices (shapes ++ rest) := by
  have keyed' := keysDistinct_flatMap_leaves keyed
  have among' := flatMap_subset_flatMap leaves among
  simp only [choices, flatten_eq, List.flatMap_append]
  -- the repeated shapes are dropped within the first part, before it meets the rest
  rw [← distinct_append, distinct_append_of_subset keyed' among', distinct_append]

/-- Shapes that come again change nothing about a merge, whatever follows. -/
theorem merge_repeated (keyed : ∀ s ∈ shapes, s.keysDistinct) (among : again ⊆ shapes)
    (rest : List Shape) : merge (shapes ++ again ++ rest) = merge (shapes ++ rest) := by
  by_cases none : shapes ++ rest = []
  · obtain ⟨rfl, rfl⟩ := List.append_eq_nil_iff.1 none
    rw [List.subset_nil.1 among, List.append_nil]
  · have none' : shapes ++ again ++ rest ≠ [] := by
      intro all
      obtain ⟨both, last⟩ := List.append_eq_nil_iff.1 all
      exact none (List.append_eq_nil_iff.2 ⟨(List.append_eq_nil_iff.1 both).1, last⟩)
    rw [merge_eq_choices none', merge_eq_choices none, choices_repeated keyed among]

end Shape

namespace Record

/-- An object that nothing has been merged into. -/
structure Unmerged (r : Record) : Prop where
  keyed : r.toShape.keysDistinct
  single : ∀ p ∈ r.properties, p.shape.isUnion = false
  fresh : r.Fresh

theorem Unmerged.of_unnamed {r : Record} (unmerged : r.unnamed.Unmerged) : r.Unmerged where
  keyed := Shape.keysDistinct_of_unnamed (Shape.unnamed_toShape r ▸ unmerged.keyed)
  single p member := by
    have known := unmerged.single p.unnamed (List.mem_map_of_mem member)
    rwa [Property.unnamed_shape, Shape.isUnion_unnamed] at known
  fresh p member := unmerged.fresh p.unnamed (List.mem_map_of_mem member)

/-- A single object is merged like several as long as nothing has been merged into it. -/
theorem merge_unmerged {records : List Record} (unmerged : ∀ r ∈ records, r.Unmerged) (name : Text) :
    merge records name = ⟨name, (records.flatMap keys).eraseDups.map (mergedProperty records)⟩ := by
  apply merge_eq
  · exact fun r member => (Shape.keysDistinct_object.1 (unmerged r member).keyed).1
  · exact fun r member p inside => ⟨(unmerged r member).single p inside, (unmerged r member).fresh p inside⟩

section

variable {records again : List Record} (among : again ⊆ records)

include among

theorem seen_subset (key : Text) : seen again key ⊆ seen records key :=
  List.filterMap_subset _ among

theorem eraseDups_keys_repeated :
    ((records ++ again).flatMap keys).eraseDups = (records.flatMap keys).eraseDups := by
  have none : (again.flatMap keys).removeAll (records.flatMap keys) = [] := by
    rw [List.removeAll, List.filter_eq_nil_iff]
    intro key member
    simpa using flatMap_subset_flatMap keys among member
  rw [List.flatMap_append, List.eraseDups_append, none, List.eraseDups_nil, List.append_nil]

theorem mergedProperty_repeated (keyed : ∀ r ∈ records, r.toShape.keysDistinct) (key : Text) :
    mergedProperty (records ++ again) key = mergedProperty records key := by
  have whole : seen (records ++ again) key = seen records key ++ seen again key := List.filterMap_append
  have shape : Shape.merge ((seen (records ++ again) key).map (·.shape)) =
      Shape.merge ((seen records key).map (·.shape)) := by
    have more : (seen again key).map (·.shape) ⊆ (seen records key).map (·.shape) :=
      List.map_subset _ (seen_subset among key)
    simpa only [whole, List.map_append, List.append_nil] using
      Shape.merge_repeated (keysDistinct_seen keyed key) more []
  have nullable : (seen (records ++ again) key).any (·.nullable) =
      (seen records key).any (·.nullable) := by
    rw [whole, List.any_append, Bool.or_eq_left_iff_imp, List.any_eq_true, List.any_eq_true]
    rintro ⟨p, member, null⟩
    exact ⟨p, seen_subset among key member, null⟩
  -- there are more objects now, and more that have the key, but none that is new lacks it
  have optional : (mergedProperty (records ++ again) key).optional =
      (mergedProperty records key).optional := by
    rw [Bool.eq_iff_iff, optional_mergedProperty, optional_mergedProperty]
    constructor
    · rintro ⟨r, member, lacking⟩
      exact ⟨r, (List.mem_append.1 member).elim id fun repeated => among repeated, lacking⟩
    · rintro ⟨r, member, lacking⟩
      exact ⟨r, List.mem_append_left again member, lacking⟩
  rw [mergedProperty_eq, mergedProperty_eq, Property.mk.injEq, shape, nullable]
  exact ⟨rfl, rfl, optional, rfl⟩

theorem merge_repeated (unmerged : ∀ r ∈ records, r.Unmerged) (name : Text) :
    merge (records ++ again) name = merge records name := by
  have whole : ∀ r ∈ records ++ again, r.Unmerged :=
    List.forall_mem_append.2 ⟨unmerged, fun r member => unmerged r (among member)⟩
  have each := funext (mergedProperty_repeated among fun r member => (unmerged r member).keyed)
  rw [merge_unmerged whole, merge_unmerged unmerged, eraseDups_keys_repeated among, each]

end

end Record

namespace Inference

/-! ## Arrays -/

theorem merge_elementShapes_repeated {shapes again : List Shape} (keyed : ∀ s ∈ shapes, s.keysDistinct)
    (unmerged : ∀ r ∈ shapes.filterMap Shape.record?, r.Unmerged) (among : again ⊆ shapes) :
    Shape.merge (elementShapes (shapes ++ again)) = Shape.merge (elementShapes shapes) := by
  have others : again.filter (!·.isObject) ⊆ shapes.filter (!·.isObject) := List.filter_subset _ among
  have records : again.filterMap Shape.record? ⊆ shapes.filterMap Shape.record? :=
    List.filterMap_subset _ among
  have keyed' : ∀ s ∈ shapes.filter (!·.isObject), s.keysDistinct :=
    fun s member => keyed s (List.mem_of_mem_filter member)
  rw [elementShapes, elementShapes, List.filter_append, List.filterMap_append]
  -- the merged object comes last, so the other elements are repeated before it
  generalize shapes.filterMap Shape.record? = found, again.filterMap Shape.record? = found' at *
  cases found with
  | nil =>
    rw [List.subset_nil.1 records]
    exact Shape.merge_repeated keyed' others []
  | cons r rest =>
    have merged := Record.merge_repeated records unmerged []
    rw [List.cons_append] at merged ⊢
    dsimp only
    rw [merged]
    exact Shape.merge_repeated keyed' others _

section

variable {dates : Bool} {elements again : List Value}

theorem outline_record_unmerged (distinct : ∀ v ∈ elements, v.keysDistinct) :
    ∀ r ∈ (elements.map (outline dates)).filterMap Shape.record?, r.Unmerged := by
  intro r member
  obtain ⟨s, listed, object⟩ := List.mem_filterMap.1 member
  obtain ⟨v, among, rfl⟩ := List.mem_map.1 listed
  constructor
  case keyed => exact Shape.record?_eq_some.1 object ▸ outline_keysDistinct (distinct v among)
  case single => exact fun p inside => (outline_record_sampled distinct r member p inside).shape.single
  case fresh => exact outline_record_fresh member

/-- An array has the outline that it had before some of its elements came again. -/
theorem outline_repeated (distinct : ∀ v ∈ elements, v.keysDistinct) (among : again ⊆ elements) :
    outline dates (.array (elements ++ again)) = outline dates (.array elements) := by
  have keyed : ∀ s ∈ elements.map (outline dates), s.keysDistinct :=
    List.forall_mem_map.2 fun v member => outline_keysDistinct (distinct v member)
  rw [outline_array, outline_array, List.map_append, merge_elementShapes_repeated keyed
    (outline_record_unmerged distinct) (List.map_subset _ among)]

end

/-- Nothing has been merged into an object that a run finds for a value. -/
theorem inferAt_record_unmerged {o : Options} {path : Path} {v : Value} {p : Progress} {r : Record}
    (distinct : v.keysDistinct) (object : (inferAt o path v p).1.record? = some r) : r.Unmerged := by
  have outlined := outline_record?_unnamed (inferAt_unnamed o v path p) object
  have alone : ∀ w ∈ [v], w.keysDistinct := List.forall_mem_singleton.2 distinct
  exact .of_unnamed (@outline_record_unmerged o.detectsDates [v] alone r.unnamed (by simp [outlined]))

structure AddsNothing (o : Options) (elements again : List Value) : Prop where
  whole : (infer o (.array (elements ++ again))).shape.unnamed = (infer o (.array elements)).shape.unnamed
  anywhere : ∀ path path' p p', (inferAt o path (.array (elements ++ again)) p).1.unnamed =
    (inferAt o path' (.array elements) p').1.unnamed
  /-- Objects found for elements are merged key by key, be it several or only one. -/
  byKey : ∀ records : List Record,
    (∀ r ∈ records, ∃ v ∈ elements, ∃ path p, (inferAt o path v p).1.record? = some r) → ∀ name,
      Record.merge records name =
        ⟨name, (records.flatMap Record.keys).eraseDups.map (Record.mergedProperty records)⟩

theorem addsNothing_of_subset (o : Options) {elements again : List Value}
    (distinct : (Value.array elements).keysDistinct) (among : again ⊆ elements) :
    AddsNothing o elements again := by
  have inner := Value.keysDistinct_array.1 distinct
  constructor
  case whole => rw [infer_unnamed, infer_unnamed, outline_repeated inner among]
  case anywhere =>
    intro path path' p p'
    rw [inferAt_unnamed, inferAt_unnamed, outline_repeated inner among]
  case byKey =>
    intro records found name
    refine Record.merge_unmerged (fun r member => ?_) name
    obtain ⟨v, listed, path, p, object⟩ := found r member
    exact inferAt_record_unmerged (inner v listed) object

def loneRow : Value := .object [("id", .number (.integer 1)), ("note", .null),
  ("tags", .array [.string "new", .object [("by", .null)], .null])]

theorem addsNothing_of_subset_loneRow :
    (Value.array [loneRow]).keysDistinct ∧ [loneRow, loneRow] ⊆ [loneRow] ∧
      AddsNothing {} [loneRow] [loneRow, loneRow] ∧
      (infer {} (.array [loneRow])).shape.unnamed = .array (.object [] [
        ⟨"id", .number, false, false⟩, ⟨"note", .unknown, false, true⟩,
        ⟨"tags", .array (.union [.string, .null, .object [] [⟨"by", .unknown, false, true⟩]]),
          false, false⟩]) := by
  have distinct : (Value.array [loneRow]).keysDistinct := by cbv
  have among : [loneRow, loneRow] ⊆ [loneRow] := by simp
  refine ⟨distinct, among, addsNothing_of_subset {} distinct among, ?_⟩
  rw [infer_unnamed]
  cbv

end Inference

end JsonShape
