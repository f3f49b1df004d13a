import JsonShape.Proofs.MergeAlgebra

/-! Merges of the same objects.

Which objects are merged decides about the merge, but not their order or how often one comes. What is known
about a key is read off the leaves of its shapes as a set: the flags ask whether something is among them, and
the variants are one for each class. Only the order of keys and variants goes by the list. The objects
themselves stay as they are: a new one is built beside them, key by key.
-/

set_option autoImplicit false

namespace JsonShape

theorem modify_concat {α : Type} (as : List α) (a : α) (f : α → α) :
    (as ++ [a]).modify as.length f = as ++ [f a] := by
  induction as with
  | nil => rfl
  | cons b as ih =>
    rw [List.cons_append, List.length_cons, List.modify_succ_cons, ih, List.cons_append]

namespace Shape

/-! ## Null among the variants -/

theorem exists_not_null {variants : List Shape} (apart : variants.Pairwise fun s t => ¬ same s t)
    (several : 2 ≤ variants.length) : variants.filter (!·.isNull) ≠ [] := by
  intro none
  have all : ∀ s ∈ variants, s = .null := by
    intro s member
    have null := List.filter_eq_nil_iff.1 none s member
    cases s <;> first | rfl | exact absurd rfl null
  match variants with
  | [] => cases several
  | [only] => exact absurd several (by simp)
  | first :: second :: rest =>
    have unequal := (List.pairwise_cons.1 apart).1 second List.mem_cons_self
    rw [all first (by simp), all second (by simp)] at unequal
    exact unequal (same_refl rfl)

theorem splitNull_union {variants : List Shape} (some : variants.filter (!·.isNull) ≠ []) :
    (union variants).splitNull =
      if variants.any (·.isNull) then (ofVariants (variants.filter (!·.isNull)), true)
      else (union variants, false) := by
  by_cases null : variants.any (·.isNull)
  · have fewer : (variants.filter (!·.isNull)).length ≠ variants.length := by
      rw [Ne, List.length_filter_eq_length_iff]
      obtain ⟨s, member, isNull⟩ := List.any_eq_true.1 null
      intro all
      simpa [isNull] using all s member
    rw [if_pos null, splitNull, if_neg fewer]
    split
    · next none => exact absurd none some
    · rfl
  · rw [if_neg null]
    refine splitNull_of_noNull fun others same s member => ?_
    cases same
    simpa using fun isNull => null (List.any_eq_true.2 ⟨s, member, isNull⟩)

theorem splitNull_ofVariants {variants : List Shape} (single : ∀ s ∈ variants, s.isUnion = false)
    (apart : variants.Pairwise fun s t => ¬ same s t) :
    (ofVariants variants).splitNull =
      if variants.length = 1 then (ofVariants variants, false)
      else (ofVariants (variants.filter (!·.isNull)), variants.any (·.isNull)) := by
  match variants with
  | [] => rfl
  | [only] =>
    rw [if_pos List.length_singleton]
    refine splitNull_of_noNull fun others union => ?_
    have lone := single only (List.mem_singleton_self only)
    cases union.symm.trans (rfl : ofVariants [only] = only)
    cases lone
  -- something is left of several variants when null is taken out, so the union is never replaced by null
  | first :: second :: rest =>
    have some := exists_not_null apart (by simp)
    have union : ofVariants (first :: second :: rest) = .union (first :: second :: rest) := rfl
    rw [if_neg (by simp), union, splitNull_union some]
    split
    · next null => rw [null]
    · next noNull =>
      have all : (first :: second :: rest).filter (!·.isNull) = first :: second :: rest := by
        refine List.filter_eq_self.2 fun s member => ?_
        simpa using fun isNull => noNull (List.any_eq_true.2 ⟨s, member, isNull⟩)
      rw [all, union, Bool.eq_false_iff.2 noNull]

theorem isNull_of_same {a b : Shape} (equal : same a b) : a.isNull = b.isNull := by
  have agree := childPairs?_isSome_of_same equal
  cases a <;> cases b <;> first | rfl | cases agree

/-- When null is taken out of the merges of two lists with the same leaves, the same variants remain, and null
was in both merges or in neither. -/
theorem splitNull_merge_rearranged {shapes others : List Shape} (some : shapes ≠ []) (some' : others ≠ [])
    (keyed : ∀ s ∈ shapes, s.keysDistinct)
    (members : ∀ t, t ∈ shapes.flatMap leaves ↔ t ∈ others.flatMap leaves) :
    Rearranged Equal (merge shapes).splitNull.1.variants (merge others).splitNull.1.variants ∧
      (merge shapes).splitNull.2 = (merge others).splitNull.2 := by
  have alike := choices_rearranged keyed members
  have single {shapes : List Shape} : ∀ s ∈ (choices shapes).filter (!·.isNull), s.isUnion = false :=
    fun s member => single_of_mem_choices s (List.mem_filter.1 member).1
  rw [merge_eq_choices some, merge_eq_choices some',
    splitNull_ofVariants single_of_mem_choices (choices_pairwise shapes),
    splitNull_ofVariants single_of_mem_choices (choices_pairwise others), alike.length_eq]
  split
  · rw [variants_ofVariants single_of_mem_choices, variants_ofVariants single_of_mem_choices]
    exact ⟨alike, rfl⟩
  · rw [variants_ofVariants single, variants_ofVariants single]
    exact ⟨alike.filter fun _ _ equal => congrArg (!·) (isNull_of_same equal.same),
      alike.any_eq fun _ _ equal => isNull_of_same equal.same⟩

end Shape

namespace Record

/-! ## What is known about a key -/

theorem optional_mergedProperty (records : List Record) (key : Text) :
    (mergedProperty records key).optional ↔ ∃ r ∈ records, key ∉ r.keys := by
  have lacking (r : Record) : find? r.properties key = none ↔ key ∉ r.keys := by
    rw [← Option.not_isSome_iff_eq_none, find?_isSome_iff]
    rfl
  rw [mergedProperty_eq, decide_eq_true_iff, seen, List.length_filterMap_lt_length_iff_exists]
  simp only [lacking, exists_prop]

/-- What two merges have in common that say the same about a key, which some of the objects may lack. -/
structure KeyAlike (records : List Record) (p q : Property Shape) : Prop where
  lacking : p.optional ↔ ∃ r ∈ records, p.key ∉ r.keys
  optional : p.optional = q.optional
  nullable : p.nullable = q.nullable
  variants : Rearranged Shape.Equal p.shape.variants q.shape.variants

section

variable {records others : List Record} (keyed : ∀ r ∈ records, r.toShape.keysDistinct)
  (members : ∀ r, r ∈ records ↔ r ∈ others)

include members

theorem mem_seen_iff (key : Text) (p : Property Shape) : p ∈ seen records key ↔ p ∈ seen others key := by
  simp only [mem_seen, members]

include keyed

theorem keyAlike_mergedProperty {key : Text} (has : key ∈ records.flatMap keys) :
    KeyAlike records (mergedProperty records key) (mergedProperty others key) := by
  have listed := mem_seen_iff members key
  have leaves (t : Shape) : t ∈ ((seen records key).map (·.shape)).flatMap Shape.leaves ↔
      t ∈ ((seen others key).map (·.shape)).flatMap Shape.leaves := by
    simp only [List.flatMap_map, List.mem_flatMap, listed]
  obtain ⟨p, some⟩ : ∃ p, p ∈ seen records key := by
    obtain ⟨r, among, declared⟩ := List.mem_flatMap.1 has
    obtain ⟨p, found⟩ := Option.isSome_iff_exists.1 (find?_isSome_iff.2 declared)
    exact ⟨p, mem_seen.2 ⟨r, among, found⟩⟩
  obtain ⟨variants, hadNull⟩ := Shape.splitNull_merge_rearranged
    (List.ne_nil_of_mem (List.mem_map_of_mem some))
    (List.ne_nil_of_mem (List.mem_map_of_mem ((listed p).1 some)))
    (keysDistinct_seen keyed key) leaves
  constructor
  case lacking => exact optional_mergedProperty records key
  case optional =>
    rw [Bool.eq_iff_iff, optional_mergedProperty, optional_mergedProperty]
    simp only [members]
  case nullable =>
    have nullable : (seen records key).any (·.nullable) = (seen others key).any (·.nullable) := by
      rw [Bool.eq_iff_iff, List.any_eq_true, List.any_eq_true]
      simp only [listed]
    rw [mergedProperty_eq, mergedProperty_eq, hadNull, nullable]
  case variants => exact variants

end

/-! ## Objects in memory -/

def objectsAt (memory : List Record) (places : List Nat) : List Record := places.filterMap (memory[·]?)

def addKey (places : List Nat) (new : Nat) (memory : List Record) (key : Text) : List Record :=
  memory.modify new fun r =>
    { r with properties := r.properties ++ [mergedProperty (objectsAt memory places) key] }

/-- The merge of the objects at some places is built at a new place, key by key. -/
def mergeInto (memory : List Record) (places : List Nat) (name : Text) : List Record :=
  ((objectsAt memory places).flatMap keys).eraseDups.foldl (addKey places memory.length)
    (memory ++ [⟨name, []⟩])

section

variable {memory : List Record} {places : List Nat} (inside : ∀ i ∈ places, i < memory.length)

include inside

theorem objectsAt_append (more : List Record) :
    objectsAt (memory ++ more) places = objectsAt memory places :=
  List.filterMap_congr fun i member => List.getElem?_append_left (inside i member)

/-- A turn changes the new object only. -/
theorem addKey_append (r : Record) (key : Text) :
    addKey places memory.length (memory ++ [r]) key =
      memory ++ [{ r with properties := r.properties ++ [mergedProperty (objectsAt memory places) key] }] := by
  rw [addKey, objectsAt_append inside, modify_concat]

theorem foldl_addKey (keys : List Text) (r : Record) :
    keys.foldl (addKey places memory.length) (memory ++ [r]) =
      memory ++ [{ r with
        properties := r.properties ++ keys.map (mergedProperty (objectsAt memory places)) }] := by
  induction keys generalizing r with
  | nil => rw [List.foldl_nil, List.map_nil, List.append_nil]
  | cons key keys ih =>
    rw [List.foldl_cons, addKey_append inside, ih, List.map_cons, List.append_assoc,
      List.singleton_append]

theorem mergeInto_eq (several : 2 ≤ (objectsAt memory places).length) (name : Text) :
    mergeInto memory places name = memory ++ [merge (objectsAt memory places) name] := by
  rw [mergeInto, foldl_addKey inside, merge_of_several several, List.nil_append]

end

/-! ## The same objects -/

/-- What a merge owes to which objects are merged, and what to their order. -/
structure SameMerge (records others : List Record) (name other : Text) : Prop where
  keys : ∀ key, key ∈ (merge records name).keys ↔ key ∈ (merge others other).keys
  each : ∀ p ∈ (merge records name).properties, ∀ q ∈ (merge others other).properties,
    p.key = q.key → KeyAlike records p q
  order : (merge records name).keys = (records.flatMap Record.keys).eraseDups
  /-- Wherever the objects are in memory, a new one is added and nothing else is touched. -/
  unchanged : ∀ memory places, (∀ i ∈ places, i < memory.length) → objectsAt memory places = records →
    mergeInto memory places name = memory ++ [merge records name]

theorem sameMerge_of_members {records others : List Record}
    (keyed : ∀ r ∈ records, r.toShape.keysDistinct) (members : ∀ r, r ∈ records ↔ r ∈ others)
    (several : 2 ≤ records.length) (several' : 2 ≤ others.length) (name other : Text) :
    SameMerge records others name other := by
  have order {records : List Record} (several : 2 ≤ records.length) (name : Text) :
      (merge records name).keys = (records.flatMap Record.keys).eraseDups := by
    rw [merge_of_several several, Record.keys, map_key_mergedProperty]
  constructor
  case keys =>
    intro key
    rw [order several, order several', List.mem_eraseDups, List.mem_eraseDups]
    simp only [List.mem_flatMap, members]
  case each =>
    intro p first q second same
    rw [merge_of_several several] at first
    rw [merge_of_several several'] at second
    obtain ⟨key, has, rfl⟩ := List.mem_map.1 first
    obtain ⟨key', _, rfl⟩ := List.mem_map.1 second
    rw [mergedProperty_key, mergedProperty_key] at same
    subst same
    exact keyAlike_mergedProperty keyed members (List.mem_eraseDups.1 has)
  case order => exact order several name
  case unchanged =>
    rintro memory places inside rfl
    exact mergeInto_eq inside several name

def flaggedRows : List Record := [
  ⟨"First", [⟨"id", .number, false, false⟩, ⟨"note", .union [.null, .string], true, false⟩]⟩,
  ⟨"Second", [⟨"note", .object "Note" [⟨"to", .string, true, true⟩], false, true⟩]⟩,
  ⟨"Third", [⟨"seen", .union [], false, false⟩,
    ⟨"note", .object "Note2" [⟨"to", .string, false, false⟩], false, false⟩]⟩]

theorem sameMerge_of_members_flaggedRows :
    (∀ r ∈ flaggedRows, r.toShape.keysDistinct) ∧
      (∀ r, r ∈ flaggedRows ↔ r ∈ flaggedRows.reverse ++ flaggedRows) ∧ 2 ≤ flaggedRows.length ∧
      2 ≤ (flaggedRows.reverse ++ flaggedRows).length ∧
      (merge flaggedRows "Row").keys = ["id", "note", "seen"] ∧
      SameMerge flaggedRows (flaggedRows.reverse ++ flaggedRows) "Row" "Line" := by
  have keyed : ∀ r ∈ flaggedRows, r.toShape.keysDistinct := by decide
  have members (r : Record) : r ∈ flaggedRows ↔ r ∈ flaggedRows.reverse ++ flaggedRows := by
    rw [List.mem_append, List.mem_reverse, or_self]
  exact ⟨keyed, members, by decide, by decide, by cbv,
    sameMerge_of_members keyed members (by decide) (by decide) "Row" "Line"⟩

end Record

end JsonShape
