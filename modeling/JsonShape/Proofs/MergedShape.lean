import JsonShape.Proofs.Akin
import JsonShape.Proofs.ElementOrder

/-! What a merge is.

A merge is told by the leaves of what is merged: the first leaf of every class of structurally equal ones is
kept, the unknown one only where there is no other, and what is kept stands alone or as the variants of a
union. The rule looks at positions in the list of leaves, while the merge compares with what it has kept so
far; equality is transitive, so the two agree.
-/

set_option autoImplicit false

namespace JsonShape.Shape

/-! ## The first of each class -/

/-- The shapes to which none before them is structurally equal. -/
def firstOfEach (shapes : List Shape) : List Shape :=
  (List.range shapes.length).filterMap fun i =>
    shapes[i]?.filter fun s => !(shapes.take i).any (same · s)

theorem firstOfEach_concat (shapes : List Shape) (s : Shape) :
    firstOfEach (shapes ++ [s]) =
      firstOfEach shapes ++ if shapes.any (same · s) then [] else [s] := by
  have before : ((List.range shapes.length).filterMap fun i =>
      (shapes ++ [s])[i]?.filter fun t => !((shapes ++ [s]).take i).any (same · t)) =
        firstOfEach shapes := by
    refine List.filterMap_congr fun i member => ?_
    have inside := List.mem_range.1 member
    rw [List.getElem?_append_left inside, List.take_append_of_le_length (Nat.le_of_lt inside)]
  -- the last position is that of the added shape, and all others come before it
  have last : ([shapes.length].filterMap fun i =>
      (shapes ++ [s])[i]?.filter fun t => !((shapes ++ [s]).take i).any (same · t)) =
        if shapes.any (same · s) then [] else [s] := by
    rw [List.filterMap_cons, List.getElem?_concat_length, List.take_left, Option.filter_some]
    cases shapes.any (same · s) <;> rfl
  rw [firstOfEach, List.length_append, List.length_singleton, List.range_succ, List.filterMap_append,
    before, last]

/-- A shape equal to an earlier one is equal to the one that was kept for it. -/
theorem any_distinct (shapes : List Shape) (s : Shape) :
    (distinct shapes).any (same · s) = shapes.any (same · s) := by
  rw [Bool.eq_iff_iff, List.any_eq_true, List.any_eq_true]
  constructor
  · rintro ⟨r, kept, equal⟩
    exact ⟨r, (distinct_sublist shapes).subset kept, equal⟩
  · rintro ⟨t, member, equal⟩
    obtain ⟨r, kept, stands⟩ := exists_mem_distinct member
    refine ⟨r, kept, ?_⟩
    rcases stands with rfl | stands
    · exact equal
    · exact same_trans stands equal

theorem distinct_eq_firstOfEach (shapes : List Shape) : distinct shapes = firstOfEach shapes := by
  induction shapes using List.reverseRecOn with
  | nil => rfl
  | append_singleton shapes s ih =>
    rw [distinct_concat, firstOfEach_concat, any_distinct, ← ih]
    split
    · rw [List.append_nil]
    · rfl

/-! ## Leaves of nested unions -/

/-- No union in the nest of unions is empty. -/
inductive Filled : Shape → Prop where
  | single {s : Shape} (single : s.isUnion = false) : Filled s
  | union {variants : List Shape} (some : variants ≠ []) (each : ∀ s ∈ variants, Filled s) :
      Filled (.union variants)

theorem Filled.leaves_ne_nil {s : Shape} (filled : s.Filled) : s.leaves ≠ [] := by
  induction filled with
  | single single => rw [leaves_of_not_union single]; exact List.cons_ne_nil _ _
  | @union variants some each ih =>
    obtain ⟨s, member⟩ := List.exists_mem_of_ne_nil variants some
    obtain ⟨t, leaf⟩ := List.exists_mem_of_ne_nil s.leaves (ih s member)
    rw [leaves_union]
    exact List.ne_nil_of_mem (List.mem_flatMap.2 ⟨s, member, leaf⟩)

theorem flatMap_leaves_ne_nil {shapes : List Shape} (some : shapes ≠ [])
    (filled : ∀ s ∈ shapes, s.Filled) : shapes.flatMap leaves ≠ [] := by
  obtain ⟨s, member⟩ := List.exists_mem_of_ne_nil shapes some
  obtain ⟨t, leaf⟩ := List.exists_mem_of_ne_nil s.leaves (filled s member).leaves_ne_nil
  exact List.ne_nil_of_mem (List.mem_flatMap.2 ⟨s, member, leaf⟩)

theorem single_of_mem_flatMap_leaves {shapes : List Shape} :
    ∀ t ∈ shapes.flatMap leaves, t.isUnion = false := by
  intro t member
  obtain ⟨s, _, leaf⟩ := List.mem_flatMap.1 member
  exact single_of_mem_leaves leaf

/-- Taking unions apart beforehand makes no difference. -/
theorem choices_flatMap_leaves (shapes : List Shape) : choices (shapes.flatMap leaves) = choices shapes := by
  rw [choices, choices, flatten_eq, flatten_eq, flatMap_leaves_of_single single_of_mem_flatMap_leaves]

/-! ## The merge -/

theorem mem_preferKnown_of_alone {shapes : List Shape} {s : Shape} (member : s ∈ shapes)
    (alone : s.isUnknown → ∀ t ∈ shapes, t.isUnknown) : s ∈ preferKnown shapes := by
  cases unknown : s.isUnknown with
  | false => exact mem_preferKnown member unknown
  | true =>
    have none : shapes.filter (!·.isUnknown) = [] := by
      rw [List.filter_eq_nil_iff]
      intro t among
      rw [alone unknown t among]
      exact Bool.false_ne_true
    rw [preferKnown, none]
    exact member

/-- Unknown shapes are all equal, so one stands for them. -/
theorem eq_unknown_of_pairwise {shapes : List Shape} (some : shapes ≠ [])
    (apart : shapes.Pairwise fun earlier later => ¬ same earlier later)
    (unknown : ∀ s ∈ shapes, s.isUnknown) : shapes = [.unknown] := by
  match shapes with
  | [] => exact absurd rfl some
  | [only] =>
    have alone := unknown only (List.mem_singleton_self only)
    cases only with
    | unknown => rfl
    | _ => cases alone
  | first :: second :: rest =>
    have equal : same first second :=
      same_of_unknown (unknown first (by simp)) (unknown second (by simp))
    exact absurd equal ((List.pairwise_cons.1 apart).1 second List.mem_cons_self)

structure MergeOf (shapes : List Shape) (merged : Shape) : Prop where
  rule : merged =
    match (firstOfEach (shapes.flatMap leaves)).filter (!·.isUnknown) with
    | [] => .unknown
    | [only] => only
    | several => .union several
  /-- Where no leaf is known, the unknown one is the only one of its class. -/
  nothingElse : (firstOfEach (shapes.flatMap leaves)).filter (!·.isUnknown) = [] →
    firstOfEach (shapes.flatMap leaves) = [.unknown]
  /-- Every class of leaves has its member in the merge, but unknown gives way to any other. -/
  covers : ∀ s ∈ shapes.flatMap leaves,
    (s.isUnknown → ∀ t ∈ shapes.flatMap leaves, t.isUnknown) →
    ∃ r ∈ merged.leaves, same r s ∧ same s r
  union : ∀ variants, merged = .union variants →
    2 ≤ variants.length ∧ (∀ t ∈ variants, t.isUnion = false ∧ t.isUnknown = false) ∧
      variants.Pairwise fun t u => ¬ same t u ∧ ¬ same u t

section

variable {shapes : List Shape} (some : shapes ≠ []) (filled : ∀ s ∈ shapes, s.Filled)

include some

theorem merge_eq_choices : merge shapes = ofVariants (choices shapes) := by
  obtain ⟨s, member⟩ := List.exists_mem_of_ne_nil shapes some
  exact merge_of_mem member

theorem leaves_merge : (merge shapes).leaves = choices shapes := by
  rw [merge_eq_choices some, leaves_ofVariants]
  exact fun t chosen => single_of_mem_flatMap_leaves t ((choices_sublist shapes).subset chosen)

include filled

theorem firstOfEach_unknown
    (none : (firstOfEach (shapes.flatMap leaves)).filter (!·.isUnknown) = []) :
    firstOfEach (shapes.flatMap leaves) = [.unknown] := by
  rw [← distinct_eq_firstOfEach] at none ⊢
  refine eq_unknown_of_pairwise (distinct_ne_nil (flatMap_leaves_ne_nil some filled))
    (distinct_pairwise _) fun s member => ?_
  simpa using List.filter_eq_nil_iff.1 none s member

theorem merge_rule :
    merge shapes =
      match (firstOfEach (shapes.flatMap leaves)).filter (!·.isUnknown) with
      | [] => .unknown
      | [only] => only
      | several => .union several := by
  rw [merge_eq_choices some, choices, flatten_eq, distinct_eq_firstOfEach, preferKnown]
  generalize known : (firstOfEach (shapes.flatMap leaves)).filter (!·.isUnknown) = kept
  cases kept with
  | nil =>
    rw [firstOfEach_unknown some filled known]
    rfl
  | cons first rest => cases rest <;> rfl

theorem merge_union {variants : List Shape} (union : merge shapes = .union variants) :
    Varied variants := by
  have nonempty := flatMap_leaves_ne_nil some filled
  have flat : merge (shapes.flatMap leaves) = merge shapes := by
    rw [merge_eq_choices nonempty, merge_eq_choices some, choices_flatMap_leaves]
  rw [← flat] at union
  rcases merge_cases single_of_mem_flatMap_leaves nonempty with ⟨s, member, same⟩ | ⟨same, varied⟩
  · have single := single_of_mem_flatMap_leaves s member
    rw [← same, union] at single
    cases single
  · cases same.symm.trans union
    exact varied

end

theorem mergeOf_merge {shapes : List Shape} (some : shapes ≠ []) (filled : ∀ s ∈ shapes, s.Filled)
    (distinct : ∀ s ∈ shapes, s.keysDistinct) : MergeOf shapes (merge shapes) where
  rule := merge_rule some filled
  nothingElse := firstOfEach_unknown some filled
  covers s member alone := by
    have known : ∀ t ∈ shapes.flatMap leaves, t.keysDistinct := by
      intro t among
      obtain ⟨u, listed, leaf⟩ := List.mem_flatMap.1 among
      exact keysDistinct_leaves (distinct u listed) leaf
    obtain ⟨r, kept, stands⟩ := exists_mem_distinct (mem_preferKnown_of_alone member alone)
    have chosen : r ∈ choices shapes := by
      rwa [choices, flatten_eq, preferKnown_distinct]
    have equal : same r s := by
      rcases stands with rfl | equal
      · exact same_refl (known r member)
      · exact equal
    rw [leaves_merge some]
    exact ⟨r, chosen, equal, same_symm (known s member) equal⟩
  union variants union := by
    have varied := merge_union some filled union
    have known := keysDistinct_union.1 (union ▸ keysDistinct_merge distinct)
    refine ⟨varied.several, fun t member => ⟨varied.single t member, varied.known t member⟩, ?_⟩
    refine varied.apart.imp_of_mem fun {t u} first second apart => ⟨apart, fun equal => ?_⟩
    exact apart (same_symm (known t first) equal)

def nestedUnions : List Shape := [
  .union [.unknown, .union [.number, .object "Row" [⟨"id", .string, false, false⟩]]],
  .object "Entry" [⟨"id", .string, true, false⟩],
  .union [.number],
  .null]

theorem nestedUnions_filled : ∀ s ∈ nestedUnions, s.Filled := by
  have leaf {s : Shape} (single : s.isUnion = false) : s.Filled := .single single
  rw [nestedUnions, List.forall_mem_cons, List.forall_mem_cons, List.forall_mem_cons,
    List.forall_mem_singleton]
  refine ⟨.union (by simp) ?_, leaf rfl, .union (by simp) ?_, leaf rfl⟩
  · rw [List.forall_mem_cons, List.forall_mem_singleton]
    refine ⟨leaf rfl, .union (by simp) ?_⟩
    rw [List.forall_mem_cons, List.forall_mem_singleton]
    exact ⟨leaf rfl, leaf rfl⟩
  · exact List.forall_mem_singleton.2 (leaf rfl)

theorem mergeOf_merge_nestedUnions :
    nestedUnions ≠ [] ∧ (∀ s ∈ nestedUnions, s.Filled) ∧ (∀ s ∈ nestedUnions, s.keysDistinct) ∧
      merge nestedUnions =
        .union [.number, .object "Row" [⟨"id", .string, false, false⟩], .null] ∧
      MergeOf nestedUnions (merge nestedUnions) := by
  have some : nestedUnions ≠ [] := List.cons_ne_nil _ _
  have distinct : ∀ s ∈ nestedUnions, s.keysDistinct := by decide
  exact ⟨some, nestedUnions_filled, distinct, by cbv,
    mergeOf_merge some nestedUnions_filled distinct⟩

end JsonShape.Shape
