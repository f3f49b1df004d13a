import JsonShape.Proofs.MergedShape

/-! The algebra of merging.

A merge depends on nothing but the known leaves of what is merged, and keeps the first of every class. So the
parts of a list may be merged before the whole, a merge need not be merged again, and unknown shapes make no
difference. The order of the list decides about the order of variants, and about which of equal shapes stands
for its class.
-/

set_option autoImplicit false

namespace JsonShape

/-! ## Lists without related elements -/

section

variable {α : Type} {R : α → α → Prop} {as bs : List α}

theorem Covering.tail {a b : α} (covering : Covering R (a :: as) (b :: bs)) (alone : ∀ c ∈ as, ¬ R c b)
    (alone' : ∀ d ∈ bs, ¬ R a d) : Covering R as bs := by
  constructor
  · intro c member
    obtain ⟨d, found, related⟩ := covering.left c (List.mem_cons_of_mem a member)
    have other : d ≠ b := fun same => alone c member (same ▸ related)
    exact ⟨d, List.mem_of_ne_of_mem other found, related⟩
  · intro d member
    obtain ⟨c, found, related⟩ := covering.right d (List.mem_cons_of_mem b member)
    have other : c ≠ a := fun same => alone' d member (same ▸ related)
    exact ⟨c, List.mem_of_ne_of_mem other found, related⟩

theorem Rearranged.of_covering (symm : ∀ {a b}, R a b → R b a) (trans : ∀ {a b c}, R a b → R b c → R a c)
    (apart : as.Pairwise fun a b => ¬ R a b) (apart' : bs.Pairwise fun a b => ¬ R a b)
    (covering : Covering R as bs) : Rearranged R as bs := by
  induction bs generalizing as with
  | nil => exact ⟨[], covering.eq_nil_iff.2 rfl ▸ .refl [], .nil⟩
  | cons b bs ih =>
    obtain ⟨later, rest⟩ := List.pairwise_cons.1 apart'
    obtain ⟨a, member, here⟩ := covering.right b List.mem_cons_self
    obtain ⟨before, after, rfl⟩ := List.append_of_mem member
    -- the partner of the first element is brought to the front, where it is left out with it
    have front : (before ++ a :: after).Perm (a :: (before ++ after)) := List.perm_middle
    obtain ⟨others, remain⟩ := List.pairwise_cons.1
      ((front.pairwise_iff fun unrelated related => unrelated (symm related)).1 apart)
    have turned : Covering R (a :: (before ++ after)) (b :: bs) :=
      ⟨fun c among => covering.left c (front.mem_iff.2 among), fun d among => by
        obtain ⟨c, found, related⟩ := covering.right d among
        exact ⟨c, front.mem_iff.1 found, related⟩⟩
    have without := turned.tail
      (fun c among related => others c among (trans here (symm related)))
      (fun d among related => later d among (trans (symm here) related))
    obtain ⟨between, perm, each⟩ := ih remain rest without
    exact ⟨a :: between, front.trans (perm.cons a), .cons here each⟩

end

namespace Shape

/-! ## The first of each class, part by part -/

theorem distinct_distinct (shapes : List Shape) : distinct (distinct shapes) = distinct shapes :=
  distinct_eq_self (distinct_pairwise shapes)

/-- Parts of a list may be reduced to the first of each class before the whole. -/
theorem distinct_append (shapes others : List Shape) :
    distinct (distinct shapes ++ distinct others) = distinct (shapes ++ others) := by
  induction others using List.reverseRecOn with
  | nil =>
    have none : distinct [] = [] := rfl
    rw [none, List.append_nil, List.append_nil, distinct_distinct]
  | append_singleton others s ih =>
    rw [← List.append_assoc, distinct_concat (shapes ++ others), ← ih, distinct_concat others]
    by_cases known : (distinct others).any (same · s)
    · have before : (distinct (distinct shapes ++ distinct others)).any (same · s) := by
        rw [any_distinct, List.any_append, known, Bool.or_true]
      rw [if_pos known, if_pos before]
    · rw [if_neg known, ← List.append_assoc, distinct_concat]

theorem Equal.trans {a b c : Shape} (first : a.Equal b) (second : b.Equal c) : a.Equal c :=
  ⟨first.first, second.second, same_trans first.same second.same⟩

/-- The classes, and how many there are, do not depend on the order of the shapes or on how often they are
listed. -/
theorem distinct_rearranged {shapes others : List Shape} (keyed : ∀ s ∈ shapes, s.keysDistinct)
    (members : ∀ s, s ∈ shapes ↔ s ∈ others) :
    Rearranged Equal (distinct shapes) (distinct others) := by
  have keyed' : ∀ s ∈ others, s.keysDistinct := fun s member => keyed s ((members s).2 member)
  have covers {shapes others : List Shape} (keyed : ∀ s ∈ others, s.keysDistinct)
      (among : ∀ s ∈ shapes, s ∈ others) : JsonShape.Covers Equal (distinct shapes) (distinct others) := by
    intro s kept
    have member := among s ((distinct_sublist shapes).subset kept)
    obtain ⟨r, found, stands⟩ := exists_mem_distinct member
    have inside := (distinct_sublist others).subset found
    refine ⟨r, found, Equal.symm ⟨keyed r inside, keyed s member, ?_⟩⟩
    rcases stands with rfl | equal
    · exact same_refl (keyed r inside)
    · exact equal
  have apart (shapes : List Shape) : (distinct shapes).Pairwise fun s t => ¬ s.Equal t :=
    (distinct_pairwise shapes).imp fun unequal equal => unequal equal.same
  apply Rearranged.of_covering (R := Equal) Equal.symm Equal.trans (apart shapes) (apart others)
  constructor
  · exact covers keyed' fun s member => (members s).1 member
  · exact (covers keyed fun s member => (members s).2 member).imp fun _ _ _ _ equal => equal.symm

/-! ## Known leaves -/

def knownLeaves (shapes : List Shape) : List Shape := (shapes.flatMap leaves).filter (!·.isUnknown)

def ofKnown : List Shape → Shape
  | [] => .unknown
  | [only] => only
  | several => .union several

theorem ofKnown_eq_ofVariants {shapes : List Shape} (some : shapes ≠ []) : ofKnown shapes = ofVariants shapes := by
  match shapes with
  | [] => exact absurd rfl some
  | [only] => rfl
  | first :: second :: rest => rfl

theorem knownLeaves_append (shapes others : List Shape) :
    knownLeaves (shapes ++ others) = knownLeaves shapes ++ knownLeaves others := by
  rw [knownLeaves, List.flatMap_append, List.filter_append]
  rfl

theorem knownLeaves_unknown (before after : List Shape) :
    knownLeaves (before ++ .unknown :: after) = knownLeaves (before ++ after) := by
  rw [knownLeaves_append, knownLeaves_append]
  rfl

theorem of_mem_knownLeaves {shapes : List Shape} :
    ∀ s ∈ knownLeaves shapes, s.isUnion = false ∧ s.isUnknown = false := by
  intro s member
  obtain ⟨leaf, known⟩ := List.mem_filter.1 member
  exact ⟨single_of_mem_flatMap_leaves s leaf, by simpa using known⟩

theorem filled_ofKnown {shapes : List Shape} (single : ∀ s ∈ shapes, s.isUnion = false) :
    (ofKnown shapes).Filled := by
  match shapes with
  | [] => exact .single rfl
  | [only] => exact .single (single only (List.mem_singleton_self only))
  | first :: second :: rest =>
    exact .union (List.cons_ne_nil _ _) fun s member => .single (single s member)

theorem knownLeaves_ofKnown {shapes : List Shape}
    (each : ∀ s ∈ shapes, s.isUnion = false ∧ s.isUnknown = false) :
    knownLeaves [ofKnown shapes] = shapes := by
  have all : shapes.filter (!·.isUnknown) = shapes :=
    List.filter_eq_self.2 fun s member => by rw [(each s member).2]; rfl
  by_cases none : shapes = []
  · rw [none]
    rfl
  · rw [ofKnown_eq_ofVariants none, knownLeaves, List.flatMap_singleton,
      leaves_ofVariants fun s member => (each s member).1, all]

variable {shapes others : List Shape}

/-- A merge is told by its known leaves alone. -/
theorem merge_eq_ofKnown (filled : ∀ s ∈ shapes, s.Filled) :
    merge shapes = ofKnown (distinct (knownLeaves shapes)) := by
  by_cases none : shapes = []
  · rw [none]
    rfl
  · have known := filter_distinct (p := (!·.isUnknown))
      (fun _ _ equal => congrArg (!·) (isUnknown_of_same equal)) (shapes.flatMap leaves)
    rw [merge_rule none filled, ← distinct_eq_firstOfEach, known, ← knownLeaves]
    rfl

theorem of_mem_distinct_knownLeaves :
    ∀ s ∈ distinct (knownLeaves shapes), s.isUnion = false ∧ s.isUnknown = false :=
  fun s member => of_mem_knownLeaves s ((distinct_sublist _).subset member)

theorem filled_merge (filled : ∀ s ∈ shapes, s.Filled) : (merge shapes).Filled := by
  rw [merge_eq_ofKnown filled]
  exact filled_ofKnown fun s member => (of_mem_distinct_knownLeaves s member).1

theorem knownLeaves_merge (filled : ∀ s ∈ shapes, s.Filled) :
    knownLeaves [merge shapes] = distinct (knownLeaves shapes) := by
  rw [merge_eq_ofKnown filled, knownLeaves_ofKnown of_mem_distinct_knownLeaves]

/-! ## The laws -/

/-- A merge may be put together from merges of its parts. -/
theorem merge_append (filled : ∀ s ∈ shapes, s.Filled) (filled' : ∀ s ∈ others, s.Filled) :
    merge (shapes ++ others) = merge [merge shapes, merge others] := by
  have parts : ∀ s ∈ [merge shapes, merge others], s.Filled := by
    rw [List.forall_mem_cons, List.forall_mem_singleton]
    exact ⟨filled_merge filled, filled_merge filled'⟩
  rw [merge_eq_ofKnown (List.forall_mem_append.2 ⟨filled, filled'⟩), merge_eq_ofKnown parts,
    ← List.singleton_append, knownLeaves_append, knownLeaves_append, knownLeaves_merge filled,
    knownLeaves_merge filled', distinct_append]

theorem merge_merge (filled : ∀ s ∈ shapes, s.Filled) : merge [merge shapes] = merge shapes := by
  have whole : ∀ s ∈ [merge shapes], s.Filled := List.forall_mem_singleton.2 (filled_merge filled)
  rw [merge_eq_ofKnown whole, knownLeaves_merge filled, distinct_distinct, merge_eq_ofKnown filled]

theorem merge_unknown {before after : List Shape} (filled : ∀ s ∈ before ++ after, s.Filled) :
    merge (before ++ .unknown :: after) = merge (before ++ after) := by
  have more : ∀ s ∈ before ++ .unknown :: after, s.Filled := by
    rw [List.forall_mem_append] at filled ⊢
    exact ⟨filled.1, List.forall_mem_cons.2 ⟨.single rfl, filled.2⟩⟩
  rw [merge_eq_ofKnown more, merge_eq_ofKnown filled, knownLeaves_unknown]

/-! ## Order -/

def variants : Shape → List Shape
  | .union variants => variants
  | s => [s]

/-- Equal up to the order of variants and to which of equal shapes stands for its class. -/
structure SameVariants (a b : Shape) : Prop where
  isUnion : a.isUnion = b.isUnion
  variants : Rearranged Equal a.variants b.variants

theorem variants_ofVariants {variants : List Shape} (single : ∀ s ∈ variants, s.isUnion = false) :
    (ofVariants variants).variants = variants := by
  match variants with
  | [] => rfl
  | [only] =>
    have alone := single only (List.mem_singleton_self only)
    cases only with
    | union variants => cases alone
    | _ => rfl
  | first :: second :: rest => rfl

theorem isUnion_ofVariants {variants : List Shape} (single : ∀ s ∈ variants, s.isUnion = false) :
    (ofVariants variants).isUnion = decide (variants.length ≠ 1) := by
  match variants with
  | [] => rfl
  | [only] => exact single only (List.mem_singleton_self only)
  | first :: second :: rest => rfl

theorem sameVariants_ofVariants (single : ∀ s ∈ shapes, s.isUnion = false)
    (single' : ∀ s ∈ others, s.isUnion = false) (rearranged : Rearranged Equal shapes others) :
    (ofVariants shapes).SameVariants (ofVariants others) where
  isUnion := by rw [isUnion_ofVariants single, isUnion_ofVariants single', rearranged.length_eq]
  variants := by rwa [variants_ofVariants single, variants_ofVariants single']

theorem preferKnown_rearranged (rearranged : Rearranged Equal shapes others) :
    Rearranged Equal (preferKnown shapes) (preferKnown others) := by
  have known := rearranged.filter (p := (!·.isUnknown)) (q := (!·.isUnknown)) fun _ _ equal =>
    congrArg (!·) (isUnknown_of_same equal.same)
  simp only [preferKnown, List.isEmpty_iff, known.covering.eq_nil_iff]
  split
  · exact rearranged
  · exact known

theorem single_of_mem_choices : ∀ s ∈ choices shapes, s.isUnion = false :=
  fun s member => single_of_mem_flatMap_leaves s ((choices_sublist shapes).subset member)

/-- What a merge consists of depends on which leaves there are, up to order and to the choice of one for each
class. -/
theorem choices_rearranged (keyed : ∀ s ∈ shapes, s.keysDistinct)
    (members : ∀ t, t ∈ shapes.flatMap leaves ↔ t ∈ others.flatMap leaves) :
    Rearranged Equal (choices shapes) (choices others) := by
  rw [choices, choices, flatten_eq, flatten_eq]
  exact preferKnown_rearranged (distinct_rearranged (keysDistinct_flatMap_leaves keyed) members)

theorem merge_perm (keyed : ∀ s ∈ shapes, s.keysDistinct) (perm : shapes.Perm others) :
    (merge shapes).SameVariants (merge others) := by
  by_cases none : shapes = []
  · subst none
    rw [← perm.nil_eq]
    exact ⟨rfl, [.unknown], .refl _, .cons respected_equal.unknown .nil⟩
  · have none' : others ≠ [] := fun none' => none (none' ▸ perm).eq_nil
    rw [merge_eq_choices none, merge_eq_choices none']
    refine sameVariants_ofVariants single_of_mem_choices single_of_mem_choices ?_
    exact choices_rearranged keyed fun t => (perm.flatMap_right leaves).mem_iff

/-- The laws of merging two lists of shapes, together or apart. -/
structure MergeLaws (shapes others : List Shape) : Prop where
  one : ∀ s ∈ shapes, s.isUnion = false → merge [s] = s
  append : merge (shapes ++ others) = merge [merge shapes, merge others]
  again : merge [merge shapes] = merge shapes
  unknown : ∀ before after, shapes = before ++ after → merge (before ++ .unknown :: after) = merge shapes
  perm : ∀ turned, shapes.Perm turned → (merge shapes).SameVariants (merge turned)

/-- The laws hold where no union is empty, and every object lists its keys once. -/
theorem mergeLaws_of_filled {shapes others : List Shape} (filled : ∀ s ∈ shapes ++ others, s.Filled)
    (keyed : ∀ s ∈ shapes, s.keysDistinct) : MergeLaws shapes others := by
  obtain ⟨first, second⟩ := List.forall_mem_append.1 filled
  constructor
  case one => exact fun s _ single => merge_singleton single
  case append => exact merge_append first second
  case again => exact merge_merge first
  case unknown =>
    rintro before after rfl
    exact merge_unknown first
  case perm => exact fun turned => merge_perm keyed

def laterUnions : List Shape := [
  .object "Later" [⟨"id", .string, false, true⟩],
  .union [.unknown, .union [.null, .date]],
  .number]

theorem mergeLaws_of_filled_nestedUnions :
    (∀ s ∈ nestedUnions ++ laterUnions, s.Filled) ∧ (∀ s ∈ nestedUnions, s.keysDistinct) ∧
      merge (nestedUnions ++ laterUnions) =
        .union [.number, .object "Row" [⟨"id", .string, false, false⟩], .null, .date] ∧
      MergeLaws nestedUnions laterUnions := by
  have leaf {s : Shape} (single : s.isUnion = false) : s.Filled := .single single
  have later : ∀ s ∈ laterUnions, s.Filled := by
    rw [laterUnions, List.forall_mem_cons, List.forall_mem_cons, List.forall_mem_singleton]
    refine ⟨leaf rfl, .union (by simp) ?_, leaf rfl⟩
    rw [List.forall_mem_cons, List.forall_mem_singleton]
    refine ⟨leaf rfl, .union (by simp) ?_⟩
    rw [List.forall_mem_cons, List.forall_mem_singleton]
    exact ⟨leaf rfl, leaf rfl⟩
  have filled := List.forall_mem_append.2 ⟨nestedUnions_filled, later⟩
  have keyed : ∀ s ∈ nestedUnions, s.keysDistinct := by decide
  exact ⟨filled, keyed, by cbv, mergeLaws_of_filled filled keyed⟩

end Shape

end JsonShape
