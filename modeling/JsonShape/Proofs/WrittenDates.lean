import JsonShape.Proofs.Conversion
import JsonShape.Proofs.DateDetection
import JsonShape.Proofs.Rendering
import Mathlib.Algebra.Order.BigOperators.Group.List
import Mathlib.Algebra.Order.Group.Nat
import Mathlib.Data.List.Permutation

/-! Dates in type declarations.

A date is written as a string, but unions are built before anything is written, and there a date and a
string are different variants. Declarations tell that dates were looked for exactly where variants of one
union fall together once dates are read as strings. Such a union is written longer with dates, and nothing
that is written without them makes up for it.
-/

set_option autoImplicit false

namespace JsonShape

namespace Shape

/-- No union has variants that become equal once dates are read as strings. -/
def StaysApart (s : Shape) : Prop :=
  ∀ address variants, s.nodeAt? address = some (.union variants) →
    (variants.map undated).Pairwise fun earlier later => ¬ same earlier later

theorem staysApart_iff {s : Shape} :
    s.StaysApart ↔
      (∀ variants, s = .union variants →
        (variants.map undated).Pairwise fun earlier later => ¬ same earlier later) ∧
      ∀ t ∈ s.inside, t.StaysApart := by
  constructor
  · intro apart
    refine ⟨fun variants union => apart [] variants (congrArg some union), fun t member => ?_⟩
    intro address variants leads
    obtain ⟨i, position⟩ := List.mem_iff_getElem?.1 member
    apply apart (i :: address) variants
    rw [nodeAt?, position]
    exact leads
  · rintro ⟨here, below⟩ address variants leads
    cases address with
    | nil => exact here variants (Option.some.inj leads)
    | cons i rest =>
      obtain ⟨t, position, leads⟩ := Option.bind_eq_some_iff.1 leads
      exact below t (List.mem_of_getElem? position) rest variants leads

@[simp] theorem staysApart_array {element : Shape} :
    (array element).StaysApart ↔ element.StaysApart := by
  rw [staysApart_iff]
  simp [inside]

@[simp] theorem staysApart_union {variants : List Shape} :
    (union variants).StaysApart ↔
      ((variants.map undated).Pairwise fun earlier later => ¬ same earlier later) ∧
      ∀ t ∈ variants, t.StaysApart := by
  rw [staysApart_iff]
  simp [inside]

@[simp] theorem staysApart_object {name : Text} {properties : List (Property Shape)} :
    (object name properties).StaysApart ↔ ∀ p ∈ properties, p.shape.StaysApart := by
  rw [staysApart_iff]
  simp [inside]

theorem staysApart_leaf {s : Shape} (single : s.isUnion = false) (bare : s.inside = []) :
    s.StaysApart := by
  refine staysApart_iff.2 ⟨fun variants union => ?_, by simp [bare]⟩
  rw [union] at single
  cases single

/-- A union of inferred shapes loses those variants that fall together, and keeps all others. -/
theorem undated_of_varied {variants : List Shape} (varied : Varied variants) :
    (union variants).undated = ofVariants (distinct (variants.map undated)) := by
  have image : ∀ s ∈ variants.map undated, s.isUnion = false :=
    List.forall_mem_map.2 fun s member => isUnion_undated (varied.single s member)
  have known : preferKnown (variants.map undated) = variants.map undated := by
    have all : variants.filter (!·.isUnknown) = variants :=
      List.filter_eq_self.2 fun s member => by rw [varied.known s member]; rfl
    rw [preferKnown_map fun s member => isUnknown_undated (varied.single s member), preferKnown, all]
    split <;> rfl
  obtain ⟨s, member⟩ := List.exists_mem_of_length_pos (Nat.lt_of_lt_of_le Nat.two_pos varied.several)
  rw [undated_union, merge_of_mem (List.mem_map_of_mem member), choices_of_single image, known]

theorem ofVariants_of_several {variants : List Shape} (several : 2 ≤ variants.length) :
    ofVariants variants = .union variants := by
  match variants with
  | [] => cases several
  | [_] => cases several with | step never => cases never
  | _ :: _ :: _ => simp [ofVariants]

theorem undated_of_apart {variants : List Shape} (varied : Varied variants)
    (apart : (variants.map undated).Pairwise fun earlier later => ¬ same earlier later) :
    (union variants).undated = .union (variants.map undated) := by
  rw [undated_of_varied varied, distinct_eq_self apart, ofVariants_of_several]
  rw [List.length_map]
  exact varied.several

theorem preorder_array (element : Shape) : (array element).preorder = element.preorder := by
  rw [preorder]

theorem preorder_union (variants : List Shape) :
    (union variants).preorder = variants.flatMap preorder := by
  rw [preorder, preorderVariants_eq]

theorem preorder_object (name : Text) (properties : List (Property Shape)) :
    (object name properties).preorder =
      ⟨name, properties⟩ :: properties.flatMap (·.shape.preorder) := by
  rw [preorder, preorderProperties_eq, List.flatMap_map]

theorem preorder_ofVariants (variants : List Shape) :
    (ofVariants variants).preorder = variants.flatMap preorder := by
  unfold ofVariants
  split
  · exact (List.flatMap_singleton preorder _).symm
  · exact preorder_union _

end Shape

namespace TypeScript

variable {style : Style}

theorem mappings_undated (r : Record) : mappings style r.undated = mappings style r := by
  simp only [mappings, Record.undated, Shape.map_key_undated]

/-! ## Where variants stay apart -/

theorem field_undated {p : Property Shape} (same : typeOf p.shape.undated = typeOf p.shape) :
    field style p.undated = field style p := by
  rw [field_eq, field_eq, Property.undated_shape, same]
  rfl

theorem block_undated {r : Record}
    (each : ∀ p ∈ r.properties, typeOf p.shape.undated = typeOf p.shape) :
    block style r.undated = block style r := by
  have fields : r.undated.properties.flatMap (field style) = r.properties.flatMap (field style) := by
    rw [Record.undated, List.flatMap_map]
    exact List.flatMap_congr fun p member => field_undated (each p member)
  rw [block, block, mappings_undated, fields]
  rfl

theorem isUnion_undated_of_apart {inArray : Bool} {s : Shape} (normal : s.NormalAt inArray)
    (apart : s.StaysApart) : s.undated.isUnion = s.isUnion := by
  cases s with
  | union variants =>
    rw [Shape.undated_of_apart normal.here (Shape.staysApart_union.1 apart).1]
    rfl
  | _ => rfl

theorem texts_undated_of_apart {inArray : Bool} {s : Shape} (normal : s.NormalAt inArray)
    (apart : s.StaysApart) :
    typeOf s.undated = typeOf s ∧
      s.undated.preorder.map (block style) = s.preorder.map (block style) := by
  induction s generalizing inArray with
  | array element ih =>
    have below := normal.inner element List.mem_cons_self
    rw [Shape.staysApart_array] at apart
    obtain ⟨text, blocks⟩ := ih below apart
    rw [Shape.undated_array, typeOf_array, typeOf_array, text, isUnion_undated_of_apart below apart,
      Shape.preorder_array, Shape.preorder_array]
    exact ⟨rfl, blocks⟩
  | union variants ih =>
    obtain ⟨here, below⟩ := Shape.staysApart_union.1 apart
    have each := fun t member => ih t member (normal.inner t member) (below t member)
    rw [Shape.undated_of_apart normal.here here, typeOf_union, typeOf_union,
      Shape.preorder_union, Shape.preorder_union, List.map_map, List.flatMap_map, List.map_flatMap,
      List.map_flatMap]
    exact ⟨congrArg _ (List.map_congr_left fun t member => (each t member).1),
      List.flatMap_congr fun t member => (each t member).2⟩
  | object name properties ih =>
    have below := Shape.staysApart_object.1 apart
    have each := fun p member =>
      ih p member (normal.inner p.shape (List.mem_map_of_mem member)) (below p member)
    have block := @block_undated style ⟨name, properties⟩ fun p member => (each p member).1
    rw [Shape.undated_object, typeOf_object, typeOf_object, Shape.preorder_object,
      Shape.preorder_object, List.map_cons, List.map_cons, List.flatMap_map, List.map_flatMap,
      List.map_flatMap]
    exact ⟨rfl, congrArg₂ List.cons block (List.flatMap_congr fun p member => (each p member).2)⟩
  | date => exact ⟨(typeOf_eq .string).trans (typeOf_eq .date).symm, rfl⟩
  | _ => exact ⟨rfl, rfl⟩

/-! ## Lengths -/

end TypeScript

namespace Text

theorem length_joined (separator : Text) {parts : List Text} (some : parts ≠ []) :
    (joined separator parts).length + separator.length =
      (parts.map fun part => part.length + separator.length).sum := by
  induction parts with
  | nil => exact absurd rfl some
  | cons first rest ih =>
    cases rest with
    | nil => simp [joined]
    | cons second rest =>
      have later := ih (List.cons_ne_nil second rest)
      rw [joined, List.intercalate_cons_cons, ← joined, List.map_cons, List.sum_cons, ← later]
      simp only [List.length_append]
      omega

end Text

theorem sum_le_of_sublist {α : Type} {xs ys : List α} (weight : α → Nat) (kept : xs.Sublist ys) :
    (xs.map weight).sum ≤ (ys.map weight).sum :=
  (kept.map weight).sum_le_sum fun _ _ => Nat.zero_le _

theorem sum_lt_of_sublist {α : Type} {xs ys : List α} {weight : α → Nat}
    (positive : ∀ y, 0 < weight y) (kept : xs.Sublist ys) (fewer : xs ≠ ys) :
    (xs.map weight).sum < (ys.map weight).sum := by
  induction kept with
  | slnil => exact absurd rfl fewer
  | cons y kept ih =>
    have rest := sum_le_of_sublist weight kept
    have here := positive y
    rw [List.map_cons, List.sum_cons]
    omega
  | cons_cons y kept ih =>
    have rest := ih fun same => fewer (congrArg (y :: ·) same)
    rw [List.map_cons, List.map_cons, List.sum_cons, List.sum_cons]
    omega

namespace TypeScript

variable {style : Style}

theorem typeOf_ofVariants (variants : List Shape) :
    typeOf (Shape.ofVariants variants) = Text.joined " | " (variants.map typeOf) := by
  unfold Shape.ofVariants
  split
  · simp [Text.joined]
  · exact typeOf_union _

def typeLength (s : Shape) : Nat := (typeOf s).length

def blocksLength (style : Style) (s : Shape) : Nat :=
  (s.preorder.map fun r => (block style r).length + 2).sum

theorem typeLength_ofVariants {variants : List Shape} (some : variants ≠ []) :
    typeLength (Shape.ofVariants variants) + 3 = (variants.map fun s => typeLength s + 3).sum := by
  have texts : variants.map typeOf ≠ [] := by simpa using some
  have joined := Text.length_joined " | " texts
  rw [List.map_map] at joined
  rw [typeLength, typeOf_ofVariants]
  exact joined

theorem blocksLength_array (element : Shape) :
    blocksLength style (.array element) = blocksLength style element := by
  rw [blocksLength, Shape.preorder_array, blocksLength]

theorem blocksLength_ofVariants (variants : List Shape) :
    blocksLength style (Shape.ofVariants variants) = (variants.map (blocksLength style)).sum := by
  rw [blocksLength, Shape.preorder_ofVariants, List.map_flatMap, List.flatMap_def, List.sum_flatten,
    List.map_map]
  rfl

theorem blocksLength_object (name : Text) (properties : List (Property Shape)) :
    blocksLength style (.object name properties) =
      (block style ⟨name, properties⟩).length + 2 +
        (properties.map (blocksLength style ·.shape)).sum := by
  rw [blocksLength, Shape.preorder_object, List.map_cons, List.sum_cons, List.map_flatMap,
    List.flatMap_def, List.sum_flatten, List.map_map]
  rfl

theorem field_length_undated (p : Property Shape) :
    (field style p.undated).length + typeLength p.shape =
      (field style p).length + typeLength p.shape.undated := by
  rw [field_eq, field_eq]
  change (beforeType style p ++ typeOf p.shape.undated ++ afterType p).length + _ = _
  simp only [List.length_append, typeLength]
  omega

theorem fields_length_undated (properties : List (Property Shape)) :
    ((properties.map Property.undated).flatMap (field style)).length +
        (properties.map (typeLength ·.shape)).sum =
      (properties.flatMap (field style)).length +
        (properties.map (typeLength ·.shape.undated)).sum := by
  induction properties with
  | nil => rfl
  | cons p rest ih =>
    have here := @field_length_undated style p
    simp only [List.map_cons, List.flatMap_cons, List.sum_cons, List.length_append]
    omega

/-- A block with dates and one without differ in length as their type expressions do. -/
theorem block_length_undated (name : Text) (properties : List (Property Shape)) :
    (block style ⟨name, properties.map Property.undated⟩).length +
        (properties.map (typeLength ·.shape)).sum =
      (block style ⟨name, properties⟩).length +
        (properties.map (typeLength ·.shape.undated)).sum := by
  have fields := @fields_length_undated style properties
  have comment : mappings style ⟨name, properties.map Property.undated⟩ =
      mappings style ⟨name, properties⟩ := mappings_undated ⟨name, properties⟩
  rw [block, block, comment]
  simp only [List.length_append]
  omega

/-- Reading dates as strings makes no text longer, and some text shorter where variants fall together. -/
structure Shrinks (style : Style) (s : Shape) : Prop where
  type : typeLength s.undated ≤ typeLength s
  blocks : blocksLength style s.undated ≤ blocksLength style s
  strictly : ¬ s.StaysApart →
    typeLength s.undated + blocksLength style s.undated < typeLength s + blocksLength style s

theorem shrinks_leaf {s : Shape} (type : typeOf s.undated = typeOf s)
    (blocks : s.undated.preorder = s.preorder) (bare : s.inside = [])
    (single : s.isUnion = false) : Shrinks style s := by
  refine ⟨?_, ?_, fun never => absurd (Shape.staysApart_leaf single bare) never⟩
  · rw [typeLength, typeLength, type]
  · rw [blocksLength, blocksLength, blocks]

theorem shrinks_array {element : Shape} (below : Shrinks style element) :
    Shrinks style (.array element) := by
  obtain ⟨type, blocks, strictly⟩ := below
  have lengths : typeLength (Shape.array element).undated + typeLength element ≤
      typeLength (.array element) + typeLength element.undated := by
    have brackets : (Text.ofString "[]").length = 2 ∧ (Text.ofString "(").length = 1 ∧
      (Text.ofString ")[]").length = 3 := ⟨rfl, rfl, rfl⟩
    -- the brackets go only where the union inside goes
    have kept : element.isUnion = false → element.undated.isUnion = false := Shape.isUnion_undated
    rw [Shape.undated_array]
    simp only [typeLength, typeOf_array]
    cases before : element.isUnion with
    | false => simp [kept before, brackets]; omega
    | true => cases element.undated.isUnion <;> simp [brackets] <;> omega
  refine ⟨by omega, ?_, fun apart => ?_⟩
  · rwa [Shape.undated_array, blocksLength_array, blocksLength_array]
  · have less := strictly (apart ∘ Shape.staysApart_array.2)
    rw [Shape.undated_array, blocksLength_array, blocksLength_array] at *
    omega

section

variable {variants : List Shape} {weight : Shape → Nat}
  (each : ∀ t ∈ variants, weight t.undated ≤ weight t)

include each

/-- Variants that fall together weigh less, and those that are left weigh no more than before. -/
theorem sum_distinct_le :
    ((Shape.distinct (variants.map Shape.undated)).map weight).sum ≤ (variants.map weight).sum := by
  refine (sum_le_of_sublist weight (Shape.distinct_sublist _)).trans ?_
  rw [List.map_map]
  exact List.sum_le_sum each

theorem sum_distinct_lt (positive : ∀ s, 0 < weight s)
    (some : ¬ (variants.map Shape.undated).Pairwise (fun earlier later => ¬ Shape.same earlier later) ∨
      ∃ t ∈ variants, weight t.undated < weight t) :
    ((Shape.distinct (variants.map Shape.undated)).map weight).sum < (variants.map weight).sum := by
  have kept := Shape.distinct_sublist (variants.map Shape.undated)
  have smaller : ((variants.map Shape.undated).map weight).sum ≤ (variants.map weight).sum := by
    rw [List.map_map]
    exact List.sum_le_sum each
  rcases some with together | inner
  · refine Nat.lt_of_lt_of_le (sum_lt_of_sublist positive kept fun same => ?_) smaller
    exact together (same ▸ Shape.distinct_pairwise _)
  · refine Nat.lt_of_le_of_lt (sum_le_of_sublist weight kept) ?_
    rw [List.map_map]
    exact List.sum_lt_sum _ _ each inner

end

theorem shrinks_union {variants : List Shape} (varied : Shape.Varied variants)
    (each : ∀ t ∈ variants, Shrinks style t) : Shrinks style (.union variants) := by
  have nonempty : variants ≠ [] := by
    rintro rfl
    cases varied.several
  have kept : Shape.distinct (variants.map Shape.undated) ≠ [] :=
    Shape.distinct_ne_nil (by simpa using nonempty)
  have type := typeLength_ofVariants nonempty
  have type' := typeLength_ofVariants kept
  have blocks := @blocksLength_ofVariants style variants
  have blocks' := @blocksLength_ofVariants style (Shape.distinct (variants.map Shape.undated))
  rw [Shape.ofVariants_of_several varied.several] at type blocks
  rw [← Shape.undated_of_varied varied] at type' blocks'
  refine ⟨?_, ?_, fun apart => ?_⟩
  · have less := @sum_distinct_le variants (typeLength · + 3)
      fun t member => Nat.add_le_add_right (each t member).type 3
    omega
  · have less := sum_distinct_le fun t member => (each t member).blocks
    omega
  · have less : ((Shape.distinct (variants.map Shape.undated)).map
          fun s => typeLength s + 3 + blocksLength style s).sum <
        (variants.map fun s => typeLength s + 3 + blocksLength style s).sum := by
      apply sum_distinct_lt
      · intro t member
        have smaller := each t member
        exact Nat.add_le_add (Nat.add_le_add_right smaller.type 3) smaller.blocks
      · exact fun s => by omega
      · by_cases together : (variants.map Shape.undated).Pairwise
            fun earlier later => ¬ Shape.same earlier later
        · right
          by_contra none
          refine apart (Shape.staysApart_union.2 ⟨together, fun t member => ?_⟩)
          by_contra inner
          have less := (each t member).strictly inner
          exact none ⟨t, member, by omega⟩
        · exact .inl together
    have split (shapes : List Shape) :=
      List.sum_map_add (l := shapes) (f := (typeLength · + 3)) (g := blocksLength style)
    rw [split, split] at less
    omega

theorem shrinks_object {name : Text} {properties : List (Property Shape)}
    (each : ∀ p ∈ properties, Shrinks style p.shape) : Shrinks style (.object name properties) := by
  have exchanged := @block_length_undated style name properties
  have types : (properties.map (typeLength ·.shape.undated)).sum ≤
      (properties.map (typeLength ·.shape)).sum := List.sum_le_sum fun p member => (each p member).type
  have inner : (properties.map (blocksLength style ·.shape.undated)).sum ≤
      (properties.map (blocksLength style ·.shape)).sum :=
    List.sum_le_sum fun p member => (each p member).blocks
  have blocks := @blocksLength_object style name properties
  have blocks' := @blocksLength_object style name (properties.map Property.undated)
  have type : typeLength (Shape.object name properties).undated =
      typeLength (.object name properties) := by
    rw [Shape.undated_object, typeLength, typeLength, typeOf_object, typeOf_object]
  rw [← Shape.undated_object, List.map_map] at blocks'
  simp only [Function.comp_def, Property.undated_shape] at blocks'
  refine ⟨type.le, by omega, fun apart => ?_⟩
  have less : (properties.map fun p =>
        typeLength p.shape.undated + blocksLength style p.shape.undated).sum <
      (properties.map fun p => typeLength p.shape + blocksLength style p.shape).sum := by
    apply List.sum_lt_sum
    · exact fun p member => Nat.add_le_add (each p member).type (each p member).blocks
    · by_contra none
      refine apart (Shape.staysApart_object.2 fun p member => ?_)
      by_contra inner
      exact none ⟨p, member, (each p member).strictly inner⟩
  rw [List.sum_map_add, List.sum_map_add] at less
  omega

theorem shrinks {inArray : Bool} {s : Shape} (normal : s.NormalAt inArray) : Shrinks style s := by
  induction s generalizing inArray with
  | array element ih => exact shrinks_array (ih (normal.inner element List.mem_cons_self))
  | union variants ih => exact shrinks_union normal.here fun t member => ih t member (normal.inner t member)
  | object name properties ih =>
    exact shrinks_object fun p member => ih p member (normal.inner p.shape (List.mem_map_of_mem member))
  | date => exact shrinks_leaf ((typeOf_eq .string).trans (typeOf_eq .date).symm) rfl rfl rfl
  | _ => exact shrinks_leaf rfl rfl rfl rfl

/-! ## Documents -/

theorem blocks_ne_nil (s : Shape) : s.declarationOrder.map (block style) ++ rootAlias style s ≠ [] := by
  rw [Shape.declarationOrder, Shape.records_eq, rootAlias]
  cases s with
  | object name properties => simp [Shape.preorder_object]
  | _ => simp [Shape.isObject]

theorem document_length (s : Shape) :
    (document style s).length + 1 =
      blocksLength style s + ((rootAlias style s).map (·.length + 2)).sum := by
  have joined : (Text.joined "\n\n" (s.declarationOrder.map (block style) ++ rootAlias style s)).length + 2 =
      ((s.declarationOrder.map (block style) ++ rootAlias style s).map (·.length + 2)).sum :=
    Text.length_joined "\n\n" (blocks_ne_nil s)
  have final : (Text.ofString "\n").length = 1 := rfl
  have blocks : ((s.declarationOrder.map (block style)).map (·.length + 2)).sum = blocksLength style s := by
    rw [Shape.declarationOrder, Shape.records_eq, List.map_map, List.map_reverse, List.sum_reverse]
    rfl
  rw [List.map_append, List.sum_append, blocks] at joined
  rw [document, Text.ofBlocks, List.length_append, final]
  omega

theorem alias_length_undated {s : Shape} (single : s.isUnion = false) :
    ((rootAlias style s.undated).map (·.length + 2)).sum + typeLength s =
      ((rootAlias style s).map (·.length + 2)).sum + typeLength s.undated := by
  rw [rootAlias, rootAlias, Shape.isObject_undated single]
  split
  · next object =>
    cases s with
    | object name properties =>
      rw [Shape.undated_object, typeLength, typeLength, typeOf_object, typeOf_object]
    | _ => cases object
  · simp only [List.map_singleton, List.sum_singleton, List.length_append, typeLength]
    omega

/-- The declarations of an inferred shape are those of the shape without dates exactly if no variants fall
together. -/
theorem document_undated_iff {inArray : Bool} {s : Shape} (normal : s.NormalAt inArray)
    (single : s.isUnion = false) : document style s.undated = document style s ↔ s.StaysApart := by
  constructor
  · intro equal
    by_contra together
    have less := (@shrinks style inArray s normal).strictly together
    have before := @document_length style s
    have after := @document_length style s.undated
    have aliases := @alias_length_undated style s single
    rw [equal] at after
    omega
  · intro apart
    obtain ⟨type, blocks⟩ := @texts_undated_of_apart style inArray s normal apart
    rw [document, document, rootAlias, rootAlias, Shape.isObject_undated single, type,
      Shape.declarationOrder, Shape.declarationOrder, Shape.records_eq, Shape.records_eq,
      List.map_reverse, List.map_reverse, blocks]

end TypeScript

def SettingsObject.withDates (settings : SettingsObject) (dates : Json.Value) : SettingsObject :=
  { settings with detectDates := dates }

open Json (Value)

namespace Inference

theorem infer_single (o : Options) (v : Value) : (infer o v).shape.isUnion = false := by
  rw [← Shape.isUnion_unnamed, infer_unnamed, isUnion_outline]

theorem typeScript_undated_iff (style : Style) (o : Options) {v : Value} (distinct : v.keysDistinct) :
    TypeScript.document style (infer (o.withDates false) v).shape =
        TypeScript.document style (infer (o.withDates true) v).shape ↔
      (infer (o.withDates true) v).shape.StaysApart := by
  rw [infer_undated o distinct]
  exact TypeScript.document_undated_iff (infer_normalAt _ v) (infer_single _ v)

end Inference

namespace Conversion

theorem typeScript_map? {f : Text → Option Text} {d d' : Documents} (changed : d.map? f = some d') :
    f d.typeScript = some d'.typeScript := by
  simp only [Documents.map?, Option.bind_eq_bind, Option.bind_eq_some_iff, Option.pure_def,
    Option.some.injEq] at changed
  obtain ⟨typeScript, found, _, _, _, _, rfl⟩ := changed
  exact found

/-- Documents are written from the same declarations to the same declarations. -/
theorem typeScript_writtenFor {format : Format} {settings others : Settings} {o : FormatterOptions}
    {v : Value} {d d' : Documents} (written : writtenFor? format settings o v = some d)
    (written' : writtenFor? format others o v = some d')
    (same : TypeScript.document others.style (infer others.inferOptions v).shape =
      TypeScript.document settings.style (infer settings.inferOptions v).shape) :
    d'.typeScript = d.typeScript := by
  unfold writtenFor? at written written'
  split at written
  · next formats =>
    rw [if_pos formats] at written'
    have first := typeScript_map? written
    have second := typeScript_map? written'
    simp only [documentsOf, same] at first second
    exact Option.some.inj (second.symm.trans first)
  · next plain =>
    rw [if_neg plain] at written'
    cases written
    cases written'
    exact same

/-- A valid result without dates has the type declarations of the result with dates if no variants fall
together. Unless it is formatted, it has these declarations only then. There is no such result only where the
formatter raises an exception. -/
theorem typeScript_withDates {format : Format} {settings : SettingsObject} {dates others : Value} {t : Text}
    {r : Result} (detected : dates.holds = true) (undetected : others.holds = false)
    (converted : convert format (settings.withDates dates) t = .ok r) (valid : r.isValid) :
    ∃ inferred, r.inferred = some inferred ∧
      ((convert format (settings.withDates others) t = .error .formatter ∧
          ∃ o, settings.formatter = .options o ∧ o.enabled.holds) ∨
        ∃ r', convert format (settings.withDates others) t = .ok r' ∧ r'.isValid ∧
          (inferred.shape.StaysApart → r'.documents.typeScript = r.documents.typeScript) ∧
          ((∀ o, settings.formatter = .options o → o.enabled.holds = false) →
            r'.documents.typeScript = r.documents.typeScript → inferred.shape.StaysApart)) := by
  obtain ⟨name, o, sample, v, named, options, infers, reading, value, container⟩ :=
    read_of_valid converted valid
  have distinct := Json.decode_keysDistinct (decode_of_read reading value)
  have apart := Inference.typeScript_undated_iff settings.style settings.inferOptions distinct
  have withDates : (settings.withDates dates).inferOptions = settings.inferOptions.withDates true := by
    rw [← detected]
    rfl
  have without : (settings.withDates others).inferOptions = settings.inferOptions.withDates false := by
    rw [← undetected]
    rfl
  rw [← without, ← withDates] at apart
  have again := @convert_of_container format (settings.withDates others) _ _ _ _ _ named options infers
    reading value container
  rw [convert_of_container named options infers reading value container] at converted
  cases written : writtenFor? format (settings.withDates dates).toSettings o v with
  | none => rw [written] at converted; cases converted
  | some documents =>
    rw [written] at converted
    cases converted
    refine ⟨infer (settings.withDates dates).inferOptions v, rfl, ?_⟩
    cases rewritten : writtenFor? format (settings.withDates others).toSettings o v with
    | none =>
      rw [rewritten] at again
      refine .inl ⟨again, o, options, ?_⟩
      by_contra plain
      rw [writtenFor?, if_neg plain] at rewritten
      cases rewritten
    | some documents' =>
      rw [rewritten] at again
      refine .inr ⟨_, again, rfl, fun stays => ?_, fun unformatted same => apart.1 ?_⟩
      · exact typeScript_writtenFor written rewritten (apart.2 stays)
      · have plain := unformatted o options
        rw [writtenFor?_plain plain] at written rewritten
        cases written
        cases rewritten
        exact same

def plain : Format := fun _ t => some t

def datesOn : SettingsObject := SettingsObject.withDates {} (.bool true)

def datesOff : SettingsObject := SettingsObject.withDates {} (.bool false)

def dayAndCount : Value := .object [("days", .array [.string "2024-01-02", .number (.integer 7)])]

theorem typeScript_withDates_dayAndCount :
    ∃ r r', convert plain datesOn "\x7b\"days\": [\"2024-01-02\", 7]\x7d" = .ok r ∧ r.isValid ∧
      convert plain datesOff "\x7b\"days\": [\"2024-01-02\", 7]\x7d" = .ok r' ∧ r'.isValid ∧
      r'.documents.typeScript = r.documents.typeScript := by
  have reading : Json.read "\x7b\"days\": [\"2024-01-02\", 7]\x7d" =
      .ok ⟨some dayAndCount, [⟨.parsed, []⟩]⟩ := by cbv
  have converted := @convert_of_container plain datesOn _ _ _ _ _ rfl rfl rfl reading rfl rfl
  obtain ⟨inferred, found, ⟨_, o, options, formats⟩ | ⟨r', again, valid, kept, _⟩⟩ :=
    @typeScript_withDates plain {} (.bool true) (.bool false) _ _ rfl rfl converted rfl
  · cases options
    cases formats
  refine ⟨_, r', converted, rfl, again, valid, kept ?_⟩
  cases found
  have shape : (infer datesOn.inferOptions dayAndCount).shape =
      .object "Root" [⟨"days", .array (.union [.date, .number]), false, false⟩] := by
    rw [Inference.infer_shape]
    cbv
  have apart : Shape.same Shape.date.undated Shape.number.undated = false := by cbv
  have leaves : Shape.date.StaysApart ∧ Shape.number.StaysApart :=
    ⟨Shape.staysApart_leaf rfl rfl, Shape.staysApart_leaf rfl rfl⟩
  rw [shape]
  simp [apart, leaves]

def dayAndText : Value := .array [.string "2024-01-02", .string "soon"]

theorem typeScript_tellsDates_dayAndText :
    ∃ r r', convert plain datesOn "[\"2024-01-02\", \"soon\"]" = .ok r ∧ r.isValid ∧
      convert plain datesOff "[\"2024-01-02\", \"soon\"]" = .ok r' ∧ r'.isValid ∧
      r.documents.typeScript = "export type Root = (string | string)[];\n" ∧
      r'.documents.typeScript = "export type Root = string[];\n" := by
  have reading : Json.read "[\"2024-01-02\", \"soon\"]" =
      .ok ⟨some dayAndText, [⟨.parsed, []⟩]⟩ := by cbv
  have shape : (infer datesOn.inferOptions dayAndText).shape = .array (.union [.date, .string]) := by
    rw [Inference.infer_shape]
    cbv
  have shape' : (infer datesOff.inferOptions dayAndText).shape = .array .string := by
    rw [Inference.infer_shape]
    cbv
  have converted := @convert_of_container plain datesOn _ _ _ _ _ rfl rfl rfl reading rfl rfl
  have converted' := @convert_of_container plain datesOff _ _ _ _ _ rfl rfl rfl reading rfl rfl
  refine ⟨_, _, converted, rfl, converted', rfl, ?_, ?_⟩
  · change TypeScript.document _ (infer datesOn.inferOptions dayAndText).shape = _
    rw [shape, TypeScript.document, TypeScript.rootAlias, TypeScript.typeOf_array,
      TypeScript.typeOf_union]
    cbv
  · change TypeScript.document _ (infer datesOff.inferOptions dayAndText).shape = _
    rw [shape', TypeScript.document, TypeScript.rootAlias, TypeScript.typeOf_array]
    cbv

end Conversion

end JsonShape
