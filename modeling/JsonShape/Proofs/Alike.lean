import JsonShape.Proofs.Congruence
import Mathlib.Data.List.Perm.Basic

/-! Shapes alike up to names and the order of properties.

This is finer than structural equality, since the flags of properties must agree as well. Merging respects
it: of alike lists it keeps shapes at the same positions, so that even which shape stands for its class
does not depend on the order of properties.
-/

set_option autoImplicit false

namespace JsonShape

theorem any_congr {α β : Type} {R : α → β → Prop} {p : α → Bool} {q : β → Bool} {l : List α} {l' : List β}
    (agree : ∀ a b, R a b → p a = q b) (related : List.Forall₂ R l l') : l.any p = l'.any q := by
  induction related with
  | nil => rfl
  | cons here rest ih => rw [List.any_cons, List.any_cons, agree _ _ here, ih]

namespace Shape

/-- Equal up to the names of objects and the order of their properties. -/
inductive Alike : Shape → Shape → Prop where
  | string : Alike .string .string
  | number : Alike .number .number
  | boolean : Alike .boolean .boolean
  | null : Alike .null .null
  | date : Alike .date .date
  | unknown : Alike .unknown .unknown
  | array {element other : Shape} (inner : Alike element other) : Alike (.array element) (.array other)
  | union {variants others : List Shape} (each : List.Forall₂ Alike variants others) :
      Alike (.union variants) (.union others)
  | object {n m : Text} {ps qs : List (Property Shape)}
      (keys : (ps.map (·.key)).Perm (qs.map (·.key)))
      (flags : ∀ p ∈ ps, ∀ q ∈ qs, p.key = q.key → p.optional = q.optional ∧ p.nullable = q.nullable)
      (shapes : ∀ p ∈ ps, ∀ q ∈ qs, p.key = q.key → Alike p.shape q.shape) :
      Alike (.object n ps) (.object m qs)

end Shape

structure Property.Alike (p q : Property Shape) : Prop where
  key : p.key = q.key
  optional : p.optional = q.optional
  nullable : p.nullable = q.nullable
  shape : p.shape.Alike q.shape

def Record.Alike (r t : Record) : Prop := r.toShape.Alike t.toShape

namespace Shape

theorem alike_object {n m : Text} {ps qs : List (Property Shape)} :
    (object n ps).Alike (object m qs) ↔ (ps.map (·.key)).Perm (qs.map (·.key)) ∧
      ∀ p ∈ ps, ∀ q ∈ qs, p.key = q.key → p.Alike q := by
  constructor
  · rintro (_ | _ | _ | _ | _ | _ | _ | _ | ⟨keys, flags, shapes⟩)
    refine ⟨keys, fun p first q second same => ?_⟩
    obtain ⟨optional, nullable⟩ := flags p first q second same
    exact ⟨same, optional, nullable, shapes p first q second same⟩
  · rintro ⟨keys, each⟩
    refine .object keys (fun p first q second same => ?_) fun p first q second same => ?_
    · exact ⟨(each p first q second same).optional, (each p first q second same).nullable⟩
    · exact (each p first q second same).shape

theorem Alike.isUnion {a b : Shape} (alike : a.Alike b) : a.isUnion = b.isUnion := by
  cases alike <;> rfl

theorem Alike.isNull {a b : Shape} (alike : a.Alike b) : a.isNull = b.isNull := by
  cases alike <;> rfl

theorem Alike.isUnknown {a b : Shape} (alike : a.Alike b) : a.isUnknown = b.isUnknown := by
  cases alike <;> rfl

theorem Alike.isObject {a b : Shape} (alike : a.Alike b) : a.isObject = b.isObject := by
  cases alike <;> rfl

theorem Alike.record? {a b : Shape} (alike : a.Alike b) :
    Option.Rel Record.Alike a.record? b.record? := by
  cases alike with
  | object keys flags shapes => exact .some (.object keys flags shapes)
  | _ => exact .none

theorem Alike.symm {a b : Shape} (alike : a.Alike b) : b.Alike a := by
  induction a generalizing b with
  | array element ih =>
    cases alike with
    | array inner => exact .array (ih inner)
  | union variants ih =>
    cases alike with
    | union each =>
      have swapped := (List.forall₂_and_left _ _).2 ⟨ih, each⟩
      exact .union (List.Forall₂.flip (swapped.imp fun _ _ both => both.1 both.2))
  | object name properties ih =>
    cases alike with
    | object keys flags shapes =>
      refine .object keys.symm (fun q second p first same => ?_) fun q second p first same => ?_
      · exact (flags p first q second same.symm).imp Eq.symm Eq.symm
      · exact ih p first (shapes p first q second same.symm)
  | _ => cases alike; constructor

/-! ## Structural equality -/

theorem Alike.same {a b : Shape} (alike : a.Alike b) : Shape.same a b := by
  induction a generalizing b with
  | array element ih =>
    cases alike with
    | array inner => exact (same_array element _).2 (ih inner)
  | union variants ih =>
    cases alike with
    | union each =>
      have equal := (List.forall₂_and_left _ _).2 ⟨ih, each⟩
      exact (same_union variants _).2 (equal.imp fun _ _ both => both.1 both.2)
  | object name properties ih =>
    cases alike with
    | object keys flags shapes =>
      refine (same_object name _ properties _).2 ⟨sameKeys_iff.2 fun key => keys.mem_iff, ?_⟩
      intro p first q found
      exact ih p first (shapes p first q (mem_of_find? found) (find?_key found).symm)
  | _ => cases alike; rw [same_iff]; exact ⟨[], rfl, by simp⟩

/-- Structural equality takes no notice of what may differ. -/
theorem same_congr {a b c d : Shape} (first : a.Alike b) (second : c.Alike d) :
    Shape.same a c = Shape.same b d := by
  rw [Bool.eq_iff_iff]
  constructor
  · exact fun equal => same_trans (same_trans first.symm.same equal) second.same
  · exact fun equal => same_trans (same_trans first.same equal) second.symm.same

/-! ## Merging -/

theorem leaves_alike {a b : Shape} (alike : a.Alike b) : List.Forall₂ Alike a.leaves b.leaves := by
  induction a generalizing b with
  | union variants ih =>
    cases alike with
    | union each =>
      have within := (List.forall₂_and_left _ _).2 ⟨ih, each⟩
      rw [leaves_union, leaves_union]
      exact List.rel_flatMap within fun _ _ both => both.1 both.2
  | _ => cases alike; exact .cons (by constructor <;> assumption) .nil

theorem respected_alike : Respected Alike where
  isUnknown := Alike.isUnknown
  same := same_congr
  leaves := leaves_alike
  union := .union
  unknown := .unknown

theorem splitNull_alike {a b : Shape} (alike : a.Alike b) :
    a.splitNull.1.Alike b.splitNull.1 ∧ a.splitNull.2 = b.splitNull.2 := by
  cases alike with
  | @union variants others each =>
    have kept : List.Forall₂ Alike (variants.filter (!·.isNull)) (others.filter (!·.isNull)) :=
      List.rel_filter (fun a b same => Bool.eq_iff_iff.1 (congrArg (!·) same.isNull)) each
    rw [splitNull, splitNull, kept.length_eq, each.length_eq]
    split
    · exact ⟨.union each, rfl⟩
    · generalize variants.filter (!·.isNull) = left, others.filter (!·.isNull) = left' at kept
      cases kept with
      | nil => exact ⟨.null, rfl⟩
      | cons here rest => exact ⟨respected_alike.ofVariants (.cons here rest), rfl⟩
  | _ => exact ⟨by constructor <;> assumption, rfl⟩

end Shape

/-! ## Merging objects -/

theorem find?_related {R : Property Shape → Property Shape → Prop} {ps qs : List (Property Shape)}
    (keys : (ps.map (·.key)).Perm (qs.map (·.key))) (each : ∀ p ∈ ps, ∀ q ∈ qs, p.key = q.key → R p q)
    (key : Text) : Option.Rel R (find? ps key) (find? qs key) := by
  have declared : (find? ps key).isSome = (find? qs key).isSome := by
    rw [Bool.eq_iff_iff, find?_isSome_iff, find?_isSome_iff, keys.mem_iff]
  cases first : find? ps key with
  | none =>
    cases second : find? qs key with
    | none => exact .none
    | some q => rw [first, second] at declared; cases declared
  | some p =>
    cases second : find? qs key with
    | none => rw [first, second] at declared; cases declared
    | some q =>
      have same : p.key = q.key := (find?_key first).trans (find?_key second).symm
      exact .some (each p (mem_of_find? first) q (mem_of_find? second) same)

namespace Record

section

variable {records others : List Record} (alike : List.Forall₂ Record.Alike records others)

include alike

theorem seen_alike (key : Text) : List.Forall₂ Property.Alike (seen records key) (seen others key) := by
  have found : Relator.LiftFun Record.Alike (Option.Rel Property.Alike)
      (fun r => find? r.properties key) (fun r => find? r.properties key) := by
    intro r t same
    obtain ⟨keys, each⟩ := Shape.alike_object.1 same
    exact find?_related keys each key
  exact List.rel_filterMap found alike

theorem mergedProperty_alike (key : Text) :
    (mergedProperty records key).Alike (mergedProperty others key) := by
  have seen := seen_alike alike key
  have shapes : List.Forall₂ Shape.Alike ((Record.seen records key).map (·.shape))
      ((Record.seen others key).map (·.shape)) :=
    List.rel_map (fun _ _ same => same.shape) seen
  have nullable : (Record.seen records key).any (·.nullable) = (Record.seen others key).any (·.nullable) :=
    any_congr (fun _ _ same => same.nullable) seen
  obtain ⟨shape, hadNull⟩ := Shape.splitNull_alike (Shape.respected_alike.merge shapes)
  rw [mergedProperty_eq, mergedProperty_eq]
  constructor
  · rfl
  · simp only [seen.length_eq, alike.length_eq]
  · simp only [hadNull, nullable]
  · exact shape

theorem keys_alike : (records.flatMap keys).Perm (others.flatMap keys) := by
  induction alike with
  | nil => exact .refl []
  | cons here rest ih => exact (Shape.alike_object.1 here).1.append ih

theorem merge_alike (name other : Text) : (merge records name).Alike (merge others other) := by
  have keys : (records.flatMap keys).eraseDups.Perm (others.flatMap Record.keys).eraseDups := by
    refine (List.perm_ext_iff_of_nodup (nodup_eraseDups _) (nodup_eraseDups _)).2 fun key => ?_
    rw [List.mem_eraseDups, List.mem_eraseDups, (keys_alike alike).mem_iff]
  have each := mergedProperty_alike alike
  match alike with
  | .nil => exact Shape.alike_object.2 ⟨.refl [], fun p none => absurd none List.not_mem_nil⟩
  | .cons here .nil => exact Shape.alike_object.2 (Shape.alike_object.1 here)
  | .cons _ (.cons _ _) =>
    rw [merge_several, merge_several]
    refine Shape.alike_object.2 ⟨?_, fun p first q second same => ?_⟩
    · rwa [map_key_mergedProperty, map_key_mergedProperty]
    · obtain ⟨key, _, rfl⟩ := List.mem_map.1 first
      obtain ⟨key', _, rfl⟩ := List.mem_map.1 second
      rw [mergedProperty_key, mergedProperty_key] at same
      exact same ▸ each key

end

end Record

end JsonShape
