import JsonShape.Proofs.Merging

/-! Relations that merging respects.

If related shapes have related leaves and stand in the same classes, then of related lists a merge keeps
shapes at the same positions, and the merges are related. Structural equality itself is such a relation
where objects list each key once.
-/

set_option autoImplicit false

namespace JsonShape.Shape

/-- A relation between shapes that merging cannot tell apart. -/
structure Respected (R : Shape → Shape → Prop) : Prop where
  isUnknown : ∀ {a b}, R a b → a.isUnknown = b.isUnknown
  same : ∀ {a b c d}, R a b → R c d → same a c = same b d
  leaves : ∀ {a b}, R a b → List.Forall₂ R a.leaves b.leaves
  union : ∀ {as bs}, List.Forall₂ R as bs → R (.union as) (.union bs)
  unknown : R .unknown .unknown

namespace Respected

variable {R : Shape → Shape → Prop} (respected : Respected R) {shapes others : List Shape}

include respected

theorem flatten (related : List.Forall₂ R shapes others) :
    List.Forall₂ R (Shape.flatten shapes) (Shape.flatten others) := by
  rw [flatten_eq, flatten_eq]
  exact List.rel_flatMap related fun _ _ => respected.leaves

theorem keep (related : List.Forall₂ R shapes others) {a b : Shape} (new : R a b) :
    List.Forall₂ R (Shape.keep shapes a) (Shape.keep others b) := by
  have known : shapes.any (Shape.same · a) = others.any (Shape.same · b) := by
    induction related with
    | nil => rfl
    | cons here rest ih => rw [List.any_cons, List.any_cons, respected.same here new, ih]
  rw [Shape.keep, Shape.keep, known]
  split
  · exact related
  · exact .cons new related

theorem distinct (related : List.Forall₂ R shapes others) :
    List.Forall₂ R (Shape.distinct shapes) (Shape.distinct others) := by
  -- shapes are kept or dropped at the same positions, so the folds stay related
  have step : Relator.LiftFun (List.Forall₂ R) (Relator.LiftFun R (List.Forall₂ R))
      Shape.keep Shape.keep :=
    fun _ _ kept _ _ new => respected.keep kept new
  exact List.rel_reverse (List.rel_foldl step .nil related)

theorem preferKnown (related : List.Forall₂ R shapes others) :
    List.Forall₂ R (Shape.preferKnown shapes) (Shape.preferKnown others) := by
  have known : List.Forall₂ R (shapes.filter (!·.isUnknown)) (others.filter (!·.isUnknown)) :=
    List.rel_filter (fun _ _ same => Bool.eq_iff_iff.1 (congrArg (!·) (respected.isUnknown same)))
      related
  rw [Shape.preferKnown, Shape.preferKnown]
  generalize shapes.filter (!·.isUnknown) = known, others.filter (!·.isUnknown) = known' at *
  cases known with
  | nil => exact related
  | cons here rest => exact .cons here rest

theorem choices (related : List.Forall₂ R shapes others) :
    List.Forall₂ R (Shape.choices shapes) (Shape.choices others) :=
  respected.preferKnown (respected.distinct (respected.flatten related))

theorem ofVariants (related : List.Forall₂ R shapes others) :
    R (Shape.ofVariants shapes) (Shape.ofVariants others) := by
  match related with
  | .nil => exact respected.union .nil
  | .cons here .nil => exact here
  | .cons here (.cons next rest) => exact respected.union (.cons here (.cons next rest))

/-- Merges of related lists have related variants in the same order. -/
theorem merge (related : List.Forall₂ R shapes others) :
    R (Shape.merge shapes) (Shape.merge others) := by
  cases related with
  | nil => exact respected.unknown
  | cons here rest => exact respected.ofVariants (respected.choices (.cons here rest))

end Respected

/-! ## Structural equality -/

structure Equal (a b : Shape) : Prop where
  first : a.keysDistinct
  second : b.keysDistinct
  same : same a b

theorem Equal.symm {a b : Shape} (equal : a.Equal b) : b.Equal a :=
  ⟨equal.second, equal.first, same_symm equal.second equal.same⟩

theorem Equal.leaves {a b : Shape} (equal : a.Equal b) : List.Forall₂ Equal a.leaves b.leaves := by
  have agree := childPairs?_isSome_of_same equal.same
  induction a generalizing b with
  | union as ih =>
    cases b with
    | union bs =>
      have each := (same_union as bs).1 equal.same
      rw [leaves_union, leaves_union]
      refine List.rel_flatMap (R := fun a b => a ∈ as ∧ a.Equal b) ?_ fun a b both =>
        ih a both.1 both.2 (childPairs?_isSome_of_same both.2.same)
      refine List.forall₂_iff_zip.2 ⟨each.length_eq, fun {a b} paired => ?_⟩
      have among := List.of_mem_zip paired
      exact ⟨among.1, keysDistinct_union.1 equal.first a among.1,
        keysDistinct_union.1 equal.second b among.2, List.forall₂_zip each paired⟩
    | _ => cases agree
  | _ =>
    cases b with
    | union bs => cases agree
    | _ => exact .cons equal .nil

theorem keysDistinct_of_equal {as bs : List Shape} (each : List.Forall₂ Equal as bs) :
    (∀ a ∈ as, a.keysDistinct) ∧ ∀ b ∈ bs, b.keysDistinct := by
  induction each with
  | nil => exact ⟨fun _ none => absurd none List.not_mem_nil, fun _ none => absurd none List.not_mem_nil⟩
  | cons here rest ih =>
    exact ⟨List.forall_mem_cons.2 ⟨here.first, ih.1⟩, List.forall_mem_cons.2 ⟨here.second, ih.2⟩⟩

theorem respected_equal : Respected Equal where
  isUnknown equal := isUnknown_of_same equal.same
  same first second := by
    rw [Bool.eq_iff_iff]
    constructor
    · exact fun between => same_trans (same_trans first.symm.same between) second.same
    · exact fun between => same_trans (same_trans first.same between) second.symm.same
  leaves := Equal.leaves
  union each := by
    obtain ⟨first, second⟩ := keysDistinct_of_equal each
    exact ⟨keysDistinct_union.2 first, keysDistinct_union.2 second,
      (same_union _ _).2 (each.imp fun _ _ equal => equal.same)⟩
  unknown := ⟨rfl, rfl, same_refl rfl⟩

end JsonShape.Shape
