import JsonShape.Proofs.Acceptance
import JsonShape.Proofs.Discovery
import JsonShape.Proofs.DistinctKeys
import Mathlib.Data.List.Induction

/-! The normal form of inferred shapes.

Unions are flat and have several distinct known variants, null is told by a flag and never by the shape of
a property, and only objects that were merged for an array have optional properties. The conditions are
local, one for each node, and closing an object or an array restores them.
-/

set_option autoImplicit false

namespace JsonShape

open Json (Value Member)

/-- Null leaves the shape of a property, and unknown stands there only for null. -/
structure Property.Clean (p : Property Shape) : Prop where
  notNull : p.shape.isNull = false
  noNullVariant : ∀ variants, p.shape = .union variants → ∀ t ∈ variants, t.isNull = false
  unknown : p.shape.isUnknown → p.nullable

namespace Shape

/-- Variants of a union: at least two single known shapes, and none equal to an earlier one. -/
structure Varied (variants : List Shape) : Prop where
  several : 2 ≤ variants.length
  single : ∀ t ∈ variants, t.isUnion = false
  known : ∀ t ∈ variants, t.isUnknown = false
  apart : variants.Pairwise fun earlier later => ¬ same earlier later

def ObjectLast (variants : List Shape) : Prop := ∀ t ∈ variants.dropLast, t.isObject = false

/-- The condition on a single node; `inArray` tells whether it stands for elements of an array. -/
def NodeNormal (inArray : Bool) : Shape → Prop
  | .array element => ∀ variants, element = .union variants → ObjectLast variants
  | .union variants => Varied variants
  | .object _ properties => ∀ p ∈ properties, p.Clean ∧ (p.optional → inArray)
  | _ => True

def opensArray (inArray : Bool) : Shape → Bool
  | .array _ => true
  | .union _ => inArray
  | _ => false

inductive NormalAt : Bool → Shape → Prop where
  | node {inArray : Bool} {s : Shape} (here : s.NodeNormal inArray)
      (inner : ∀ t ∈ s.inside, NormalAt (s.opensArray inArray) t) : NormalAt inArray s

theorem NormalAt.here {inArray : Bool} {s : Shape} (normal : s.NormalAt inArray) :
    s.NodeNormal inArray := by
  cases normal with
  | node here inner => exact here

theorem NormalAt.inner {inArray : Bool} {s : Shape} (normal : s.NormalAt inArray) :
    ∀ t ∈ s.inside, t.NormalAt (s.opensArray inArray) := by
  cases normal with
  | node here inner => exact inner

theorem opensArray_mono {inArray inArray' : Bool} (s : Shape) (more : inArray → inArray')
    (opens : s.opensArray inArray) : s.opensArray inArray' := by
  cases s with
  | union variants => exact more opens
  | array element => rfl
  | _ => cases opens

/-- Standing in an array only permits more. -/
theorem NormalAt.mono {inArray inArray' : Bool} {s : Shape} (normal : s.NormalAt inArray)
    (more : inArray → inArray') : s.NormalAt inArray' := by
  induction normal generalizing inArray' with
  | @node inArray s here inner ih =>
    refine .node ?_ fun t member => ih t member (opensArray_mono s more)
    cases s with
    | object name properties => exact fun p member => (here p member).imp_right (more ∘ ·)
    | _ => exact here

theorem normalAt_leaf {inArray : Bool} {s : Shape} (here : s.NodeNormal inArray)
    (bare : s.inside = []) : s.NormalAt inArray :=
  .node here fun t member => by rw [bare] at member; cases member

theorem normalAt_object {inArray : Bool} {name : Text} {properties : List (Property Shape)}
    (each : ∀ p ∈ properties, p.Clean ∧ (p.optional → inArray) ∧ p.shape.NormalAt false) :
    (object name properties).NormalAt inArray := by
  refine .node (fun p member => ⟨(each p member).1, (each p member).2.1⟩) fun t member => ?_
  obtain ⟨p, inside, rfl⟩ := List.mem_map.1 member
  exact (each p inside).2.2

/-- Outside of arrays all properties are required. -/
theorem NormalAt.required {name : Text} {properties : List (Property Shape)}
    (normal : (object name properties).NormalAt false) : ∀ p ∈ properties, p.optional = false := by
  intro p member
  cases optional : p.optional with
  | false => rfl
  | true => cases (normal.here p member).2 optional

/-! ## Merging single shapes -/

section

variable {shapes : List Shape} (single : ∀ s ∈ shapes, s.isUnion = false)

include single

theorem choices_sublist_of_single : (choices shapes).Sublist shapes := by
  have kept := choices_sublist shapes
  rwa [flatMap_leaves_of_single single] at kept

/-- A merge of single shapes is one of them, or a union of several in normal form. -/
theorem merge_cases (some : shapes ≠ []) :
    (∃ s ∈ shapes, merge shapes = s) ∨ merge shapes = .union (choices shapes) ∧ Varied (choices shapes) := by
  have among := choices_sublist_of_single single
  have apart := choices_pairwise shapes
  have nonempty : choices shapes ≠ [] :=
    choices_ne_nil (by rwa [flatMap_leaves_of_single single])
  obtain ⟨s, member⟩ := List.exists_mem_of_ne_nil shapes some
  rw [merge_of_mem member]
  match chosen : choices shapes with
  | [] => exact absurd chosen nonempty
  | [only] =>
    rw [chosen] at among
    exact .inl ⟨only, among.subset (List.mem_singleton_self only), rfl⟩
  | first :: second :: rest =>
    refine .inr ⟨rfl, ?_⟩
    rw [chosen] at among apart
    constructor
    · simp
    · exact fun t member => single t (among.subset member)
    -- an unknown variant would be one of several, and these would be equal
    · intro t member
      by_contra unknown
      rw [Bool.not_eq_false] at unknown
      have preferred : t ∈ preferKnown (distinct (flatten shapes)) := by
        rw [← choices, chosen]
        exact member
      have unknowns := all_unknown_of_mem_preferKnown preferred unknown
      rw [← choices, chosen, List.forall_mem_cons, List.forall_mem_cons] at unknowns
      have equal := same_of_unknown unknowns.1 unknowns.2.1
      exact (List.pairwise_cons.1 apart).1 second List.mem_cons_self equal
    · exact apart

theorem normalAt_merge {inArray : Bool} (normal : ∀ s ∈ shapes, s.NormalAt inArray) :
    (merge shapes).NormalAt inArray := by
  by_cases none : shapes = []
  · rw [none]
    exact normalAt_leaf trivial rfl
  · rcases merge_cases single none with ⟨s, member, same⟩ | ⟨same, varied⟩
    · exact same ▸ normal s member
    · rw [same]
      exact .node varied fun t member =>
        normal t ((choices_sublist_of_single single).subset member)

theorem merge_union_sublist {variants : List Shape} (union : merge shapes = .union variants) :
    variants.Sublist shapes := by
  have some : shapes ≠ [] := by
    rintro rfl
    cases union
  rcases merge_cases single some with ⟨s, member, same⟩ | ⟨same, _⟩
  · have lone := single s member
    rw [← same, union] at lone
    cases lone
  · cases same.symm.trans union
    exact choices_sublist_of_single single

theorem merge_isNull (some : shapes ≠ []) (notNull : ∀ s ∈ shapes, s.isNull = false) :
    (merge shapes).isNull = false := by
  rcases merge_cases single some with ⟨s, member, same⟩ | ⟨same, _⟩
  · exact same ▸ notNull s member
  · exact same ▸ rfl

theorem exists_unknown_of_merge (some : shapes ≠ []) (unknown : (merge shapes).isUnknown) :
    ∃ s ∈ shapes, s.isUnknown := by
  rcases merge_cases single some with ⟨s, member, same⟩ | ⟨same, _⟩
  · exact ⟨s, member, same ▸ unknown⟩
  · rw [same] at unknown
    cases unknown

theorem merge_noNullVariant (notNull : ∀ s ∈ shapes, s.isNull = false) :
    ∀ variants, merge shapes = .union variants → ∀ t ∈ variants, t.isNull = false :=
  fun _ union t member => notNull t ((merge_union_sublist single union).subset member)

end

theorem splitNull_of_noNull {s : Shape}
    (noNull : ∀ variants, s = .union variants → ∀ t ∈ variants, t.isNull = false) :
    s.splitNull = (s, false) := by
  cases s with
  | union variants =>
    have all : variants.filter (!·.isNull) = variants :=
      List.filter_eq_self.2 fun t member => by rw [noNull variants rfl t member]; rfl
    rw [splitNull, if_pos (by rw [all])]
  | _ => rfl

/-- Where no null is merged, none has to be taken out. -/
theorem splitNull_merge {shapes : List Shape} (single : ∀ s ∈ shapes, s.isUnion = false)
    (notNull : ∀ s ∈ shapes, s.isNull = false) : (merge shapes).splitNull = (merge shapes, false) :=
  splitNull_of_noNull (merge_noNullVariant single notNull)

end Shape

/-! ## Merging objects -/

open Shape

/-- A property as it stands in an object of the sample, where nothing has been merged yet. -/
structure Property.Plain (p : Property Shape) : Prop where
  single : p.shape.isUnion = false
  notNull : p.shape.isNull = false
  unknown : p.shape.isUnknown → p.nullable
  required : p.optional = false
  normal : p.shape.NormalAt false

theorem Property.Plain.clean {p : Property Shape} (plain : p.Plain) : p.Clean where
  notNull := plain.notNull
  noNullVariant variants same := by
    have single := plain.single
    rw [same] at single
    cases single
  unknown := plain.unknown

namespace Record

theorem mergedProperty_clean {records : List Record} {key : Text}
    (plain : ∀ r ∈ records, ∀ p ∈ r.properties, p.Plain) (has : key ∈ records.flatMap keys) :
    (mergedProperty records key).Clean ∧ (mergedProperty records key).shape.NormalAt false := by
  have seenPlain : ∀ p ∈ seen records key, p.Plain := by
    intro p among
    obtain ⟨r, member, found⟩ := mem_seen.1 among
    exact plain r member p (mem_of_find? found)
  have some : (seen records key).map (·.shape) ≠ [] := by
    obtain ⟨r, member, listed⟩ := List.mem_flatMap.1 has
    obtain ⟨p, found⟩ := Option.isSome_iff_exists.1 (find?_isSome_iff.2 listed)
    exact List.ne_nil_of_mem (List.mem_map_of_mem (mem_seen.2 ⟨r, member, found⟩))
  have single : ∀ s ∈ (seen records key).map (·.shape), s.isUnion = false :=
    List.forall_mem_map.2 fun p among => (seenPlain p among).single
  have notNull : ∀ s ∈ (seen records key).map (·.shape), s.isNull = false :=
    List.forall_mem_map.2 fun p among => (seenPlain p among).notNull
  have normal : ∀ s ∈ (seen records key).map (·.shape), s.NormalAt false :=
    List.forall_mem_map.2 fun p among => (seenPlain p among).normal
  rw [mergedProperty_eq, splitNull_merge single notNull]
  refine ⟨⟨merge_isNull single some notNull, merge_noNullVariant single notNull, ?_⟩,
    normalAt_merge single normal⟩
  -- an unknown among the merged shapes stands for a null, which its property tells
  intro unknown
  obtain ⟨s, among, unknown⟩ := exists_unknown_of_merge single some unknown
  obtain ⟨q, seen, rfl⟩ := List.mem_map.1 among
  exact List.any_eq_true.2 ⟨q, seen, (seenPlain q seen).unknown unknown⟩

theorem merge_normalAt {records : List Record} (plain : ∀ r ∈ records, ∀ p ∈ r.properties, p.Plain)
    (name : Text) : (merge records name).toShape.NormalAt true := by
  apply normalAt_object
  match records with
  | [] => exact fun p member => absurd member List.not_mem_nil
  | [only] =>
    intro p member
    have alone := plain only (List.mem_singleton_self only) p member
    exact ⟨alone.clean, fun _ => rfl, alone.normal⟩
  | first :: second :: rest =>
    rw [merge_several]
    -- every listed key is one of some object, so its property is a merge of at least one shape
    generalize first :: second :: rest = records at *
    intro p member
    obtain ⟨key, listed, rfl⟩ := List.mem_map.1 member
    obtain ⟨clean, normal⟩ := mergedProperty_clean plain (List.mem_eraseDups.1 listed)
    exact ⟨clean, fun _ => rfl, normal⟩

end Record

namespace Inference

/-! ## The outline -/

theorem propertyOf_plain {key : Text} {s : Shape} (single : s.isUnion = false)
    (known : s.isUnknown = false) (normal : (propertyOf key s).shape.NormalAt false) :
    (propertyOf key s).Plain := by
  rw [propertyOf] at normal ⊢
  split
  · exact ⟨rfl, rfl, fun _ => rfl, rfl, normalAt_leaf trivial rfl⟩
  · next value =>
    rw [if_neg value] at normal
    refine ⟨single, by simpa using value, fun unknown => ?_, rfl, normal⟩
    rw [known] at unknown
    cases unknown

theorem propertyOf_normalAt {key : Text} {s : Shape} (normal : s.NormalAt false) :
    (propertyOf key s).shape.NormalAt false := by
  rw [propertyOf]
  split
  · exact normalAt_leaf trivial rfl
  · exact normal

theorem elementShapes_single {shapes : List Shape} (single : ∀ s ∈ shapes, s.isUnion = false) :
    ∀ s ∈ elementShapes shapes, s.isUnion = false := by
  intro s member
  rcases mem_elementShapes member with ⟨among, _⟩ | rfl
  · exact single s among
  · rfl

theorem objectLast_of_sublist {shapes variants : List Shape}
    (kept : variants.Sublist (elementShapes shapes)) : ObjectLast variants := by
  obtain ⟨last, all, known⟩ := elementShapes_eq shapes
  rw [all] at kept
  -- what is kept of the others is no object, and at most one shape stands after it
  obtain ⟨others, ending, rfl, fromOthers, fromLast⟩ := List.sublist_append_iff.1 kept
  have noObject : ∀ t ∈ others, t.isObject = false := fun t member => by
    simpa using (List.mem_filter.1 (fromOthers.subset member)).2
  have atMostOne : ending.length ≤ 1 := by
    have shorter := fromLast.length_le
    rcases known with rfl | rfl
    · exact Nat.le_trans shorter (Nat.zero_le 1)
    · exact shorter
  intro t member
  match ending with
  | [] =>
    rw [List.append_nil] at member
    exact noObject t (List.dropLast_subset _ member)
  | [_] =>
    rw [List.dropLast_concat] at member
    exact noObject t member

theorem outline_record_plain {dates : Bool} {elements : List Value}
    (normal : ∀ v ∈ elements, (outline dates v).NormalAt false) :
    ∀ r ∈ (elements.map (outline dates)).filterMap Shape.record?, ∀ p ∈ r.properties, p.Plain := by
  intro r member p inside
  obtain ⟨s, listed, found⟩ := List.mem_filterMap.1 member
  obtain ⟨v, among, rfl⟩ := List.mem_map.1 listed
  obtain ⟨members, rfl, rfl⟩ := outline_record? found
  obtain ⟨m, _, rfl⟩ := List.mem_map.1 inside
  have whole := normal _ among
  rw [outline_object] at whole
  exact propertyOf_plain (isUnion_outline dates m.2) (isUnknown_outline dates m.2)
    (whole.inner _ (List.mem_map_of_mem inside))

theorem outline_normalAt (dates : Bool) (v : Value) : (outline dates v).NormalAt false := by
  induction v with
  | string s =>
    rw [outline]
    split
    · exact normalAt_leaf trivial rfl
    · exact normalAt_leaf trivial rfl
  | array elements ih =>
    rw [outline_array]
    have single : ∀ s ∈ elementShapes (elements.map (outline dates)), s.isUnion = false :=
      elementShapes_single (List.forall_mem_map.2 fun v _ => isUnion_outline dates v)
    -- the merged object needs to stand in an array, and the other elements may
    have normal : ∀ s ∈ elementShapes (elements.map (outline dates)), s.NormalAt true := by
      intro s member
      rcases mem_elementShapes member with ⟨among, _⟩ | rfl
      · obtain ⟨v, listed, rfl⟩ := List.mem_map.1 among
        exact (ih v listed).mono fun _ => rfl
      · exact Record.merge_normalAt (outline_record_plain ih) []
    refine .node (fun variants union => ?_) fun t member => ?_
    · exact objectLast_of_sublist (merge_union_sublist single union)
    · rw [List.mem_singleton.1 member]
      exact normalAt_merge single normal
  | object members ih =>
    rw [outline_object]
    refine normalAt_object fun p inside => ?_
    obtain ⟨m, among, rfl⟩ := List.mem_map.1 inside
    have normal : (propertyOf m.1 (outline dates m.2)).shape.NormalAt false :=
      propertyOf_normalAt (ih m among)
    have plain := propertyOf_plain (isUnion_outline dates m.2) (isUnknown_outline dates m.2) normal
    refine ⟨plain.clean, fun optional => ?_, normal⟩
    rw [plain.required] at optional
    cases optional
  | _ => exact normalAt_leaf trivial rfl

end Inference

/-! ## Names do not matter -/

theorem Property.Clean.of_unnamed {p : Property Shape} (clean : p.unnamed.Clean) : p.Clean where
  notNull := by simpa using clean.notNull
  noNullVariant variants union t member := by
    have same : p.unnamed.shape = .union (variants.map Shape.unnamed) := by
      rw [Property.unnamed_shape, union, unnamed_union]
    simpa using clean.noNullVariant _ same _ (List.mem_map_of_mem member)
  unknown known := clean.unknown (by simpa using known)

namespace Shape

theorem inside_unnamed (s : Shape) : s.unnamed.inside = s.inside.map unnamed := by
  cases s with
  | union variants => rw [unnamed_union]; rfl
  | object name properties =>
    simp only [unnamed_object, inside, List.map_map, Function.comp_def, Property.unnamed_shape]
  | _ => rfl

theorem Varied.of_unnamed {variants : List Shape} (varied : Varied (variants.map unnamed)) :
    Varied variants where
  several := by simpa using varied.several
  single := by simpa using varied.single
  known := by simpa using varied.known
  apart := by simpa [List.pairwise_map] using varied.apart

theorem NormalAt.of_unnamed {inArray : Bool} {s : Shape} (normal : s.unnamed.NormalAt inArray) :
    s.NormalAt inArray := by
  induction s using inside_induction generalizing inArray with
  | node s ih =>
    have inner : ∀ t ∈ s.inside, t.NormalAt (s.opensArray inArray) := by
      intro t member
      have below := normal.inner t.unnamed (inside_unnamed s ▸ List.mem_map_of_mem member)
      have opens : s.unnamed.opensArray inArray = s.opensArray inArray := by cases s <;> rfl
      exact ih t member (opens ▸ below)
    refine .node ?_ inner
    have here := normal.here
    cases s with
    | array element =>
      rintro variants rfl t last
      have kept : t.unnamed ∈ (variants.map unnamed).dropLast := by
        rw [← List.map_dropLast]
        exact List.mem_map_of_mem last
      simpa using here _ (unnamed_union variants) _ kept
    | union variants =>
      rw [unnamed_union] at here
      exact Varied.of_unnamed here
    | object name properties =>
      rw [unnamed_object] at here
      intro p member
      obtain ⟨clean, optional⟩ := here p.unnamed (List.mem_map_of_mem member)
      exact ⟨clean.of_unnamed, optional⟩
    | _ => trivial

/-! ## The normal form of a whole shape -/

def StandsInArray (s : Shape) (address : List Nat) : Prop :=
  ∃ outer element, s.nodeAt? outer = some (.array element) ∧
    (address = outer ++ [0] ∨ element.isUnion ∧ ∃ i, address = outer ++ [0, i])

/-- The normal form, told of every node at its address. -/
structure Normal (s : Shape) : Prop where
  variants : ∀ address variants, s.nodeAt? address = some (.union variants) →
    2 ≤ variants.length ∧ (∀ t ∈ variants, t.isUnion = false ∧ t.isUnknown = false) ∧
      variants.Pairwise fun t u => ¬ same t u ∧ ¬ same u t
  properties : ∀ address name properties, s.nodeAt? address = some (.object name properties) →
    ∀ p ∈ properties, p.Clean
  elements : ∀ address variants, s.nodeAt? address = some (.array (.union variants)) →
    ObjectLast variants
  optional : ∀ address name properties, s.nodeAt? address = some (.object name properties) →
    ∀ p ∈ properties, p.optional → s.StandsInArray address
  requiredAtRoot : ∀ name properties, s = .object name properties →
    ∀ p ∈ properties, p.optional = false
  requiredInMember : ∀ address name properties, s.nodeAt? address = some (.object name properties) →
    ∀ p ∈ properties, ∀ inner ps, p.shape = .object inner ps → ∀ q ∈ ps, q.optional = false

theorem nodeAt?_concat (s : Shape) (address : List Nat) (i : Nat) :
    s.nodeAt? (address ++ [i]) = (s.nodeAt? address).bind fun t => t.inside[i]? := by
  induction address generalizing s with
  | nil => simp [nodeAt?]
  | cons j rest ih => simp only [List.cons_append, nodeAt?, ih, Option.bind_assoc]

theorem keysDistinct_inside {s : Shape} (distinct : s.keysDistinct) :
    ∀ t ∈ s.inside, t.keysDistinct := by
  cases s with
  | array element => exact fun t member => List.mem_singleton.1 member ▸ distinct
  | union variants => exact keysDistinct_union.1 distinct
  | object name properties => exact List.forall_mem_map.2 (keysDistinct_object.1 distinct).2
  | _ => exact fun t member => absurd member List.not_mem_nil

theorem keysDistinct_nodeAt? {s t : Shape} {address : List Nat} (distinct : s.keysDistinct)
    (leads : s.nodeAt? address = some t) : t.keysDistinct := by
  induction address generalizing s with
  | nil => exact Option.some.inj leads ▸ distinct
  | cons i rest ih =>
    obtain ⟨u, position, leads⟩ := Option.bind_eq_some_iff.1 leads
    exact ih (keysDistinct_inside distinct u (List.mem_of_getElem? position)) leads

/-- Where a node is permitted what only elements of arrays are, it stands in an array. -/
theorem NormalAt.nodeAt? {s t : Shape} {address : List Nat} (normal : s.NormalAt false)
    (leads : s.nodeAt? address = some t) :
    ∃ inArray, t.NormalAt inArray ∧ (inArray → s.StandsInArray address) := by
  -- a union in an array is its element, not one more variant, so its own variants stand there too
  suffices carried : ∃ inArray, t.NormalAt inArray ∧ (inArray →
      s.StandsInArray address ∧ (t.isUnion → ∃ outer, s.nodeAt? outer = some (.array t) ∧
        address = outer ++ [0])) by
    obtain ⟨inArray, here, stands⟩ := carried
    exact ⟨inArray, here, fun inside => (stands inside).1⟩
  induction address using List.reverseRecOn generalizing t with
  | nil =>
    cases leads
    exact ⟨false, normal, fun never => by cases never⟩
  | append_singleton address i ih =>
    rw [nodeAt?_concat] at leads
    obtain ⟨u, reached, position⟩ := Option.bind_eq_some_iff.1 leads
    obtain ⟨inArray, above, stands⟩ := ih reached
    have among := List.mem_of_getElem? position
    refine ⟨u.opensArray inArray, above.inner t among, fun opens => ?_⟩
    cases u with
    | array element =>
      -- the element is the only node inside
      obtain ⟨bound, same⟩ := List.getElem?_eq_some_iff.1 position
      obtain rfl : i = 0 := Nat.lt_one_iff.1 bound
      cases same
      exact ⟨⟨address, _, reached, .inl rfl⟩, fun _ => ⟨address, reached, rfl⟩⟩
    | union variants =>
      obtain ⟨outer, array, rfl⟩ := (stands opens).2 rfl
      refine ⟨⟨outer, .union variants, array, .inr ⟨rfl, i, by simp⟩⟩, fun union => ?_⟩
      have varied : Varied variants := above.here
      rw [varied.single t among] at union
      cases union
    | _ => cases opens

theorem NormalAt.normal {s : Shape} (normal : s.NormalAt false) (distinct : s.keysDistinct) :
    s.Normal where
  variants address variants leads := by
    obtain ⟨inArray, here, _⟩ := normal.nodeAt? leads
    have varied : Varied variants := here.here
    refine ⟨varied.several, fun t member => ⟨varied.single t member, varied.known t member⟩, ?_⟩
    -- a later variant equals no earlier one either, since equality is symmetric where keys are distinct
    have known := keysDistinct_union.1 (keysDistinct_nodeAt? distinct leads)
    refine varied.apart.imp_of_mem fun {t u} first second apart => ⟨apart, fun equal => ?_⟩
    exact apart (same_symm (known t first) equal)
  properties address name properties leads p member := by
    obtain ⟨inArray, here, _⟩ := normal.nodeAt? leads
    exact (here.here p member).1
  elements address variants leads := by
    obtain ⟨inArray, here, _⟩ := normal.nodeAt? leads
    exact here.here variants rfl
  optional address name properties leads p member optional := by
    obtain ⟨inArray, here, stands⟩ := normal.nodeAt? leads
    exact stands ((here.here p member).2 optional)
  requiredAtRoot name properties object := by
    subst object
    exact normal.required
  requiredInMember address name properties leads p member inner ps object := by
    obtain ⟨inArray, here, _⟩ := normal.nodeAt? leads
    have below := here.inner p.shape (List.mem_map_of_mem member)
    rw [object] at below
    exact below.required

end Shape

namespace Inference

theorem infer_normalAt (o : Options) (v : Value) : (infer o v).shape.NormalAt false :=
  Shape.NormalAt.of_unnamed (infer_unnamed o v ▸ outline_normalAt o.detectsDates v)

/-- Inferred shapes are in normal form. Values that were read list each key once. -/
theorem infer_normal (o : Options) (v : Value) (distinct : v.keysDistinct) :
    (infer o v).shape.Normal := by
  have normal : (infer o v).shape.unnamed.NormalAt false := by
    rw [infer_unnamed]
    exact outline_normalAt o.detectsDates v
  exact normal.of_unnamed.normal (infer_keysDistinct o distinct)

def mixedRows : Value :=
  .object [
    ("rows", .array [
      .object [("id", .number (.integer 1)), ("note", .null)],
      .string "none",
      .object [("id", .string "7")]]),
    ("next", .null)]

theorem infer_normal_mixedRows :
    mixedRows.keysDistinct ∧
      (infer {} mixedRows).shape.unnamed =
        .object [] [
          ⟨"rows", .array (.union [
            .string,
            .object [] [
              ⟨"id", .union [.number, .string], false, false⟩,
              ⟨"note", .unknown, true, true⟩]]), false, false⟩,
          ⟨"next", .unknown, false, true⟩] ∧
      (infer {} mixedRows).shape.Normal := by
  have distinct : mixedRows.keysDistinct = true := by cbv
  have outlined := infer_unnamed {} mixedRows
  refine ⟨distinct, outlined.trans ?_, infer_normal {} mixedRows distinct⟩
  cbv

end Inference

end JsonShape
