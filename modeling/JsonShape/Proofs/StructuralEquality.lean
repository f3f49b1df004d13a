import JsonShape.Shape.Equality
import Mathlib.Data.List.Forall2
import Mathlib.Data.List.Nodup
import Mathlib.Data.List.Zip

/-! Structural equality node by node.

The comparison works through a list of pairs. Here it is taken apart: two shapes are equal when their
nodes agree and the pairs of their children are equal, whatever else is on the list. On shapes whose
objects list each key once it is an equivalence.
-/

set_option autoImplicit false

namespace JsonShape

theorem find?_key {properties : List (Property Shape)} {key : Text} {p : Property Shape}
    (found : find? properties key = some p) : p.key = key := by
  have holds := List.find?_some found
  exact of_decide_eq_true holds

theorem mem_of_find? {properties : List (Property Shape)} {key : Text} {p : Property Shape}
    (found : find? properties key = some p) : p ∈ properties :=
  List.mem_of_find?_eq_some found

theorem find?_isSome_iff {properties : List (Property Shape)} {key : Text} :
    (find? properties key).isSome ↔ key ∈ properties.map (·.key) := by
  simp [find?, List.find?_isSome]

theorem find?_of_mem {properties : List (Property Shape)} {p : Property Shape}
    (once : (properties.map (·.key)).Nodup) (member : p ∈ properties) :
    find? properties p.key = some p := by
  obtain ⟨q, found⟩ := Option.isSome_iff_exists.1 (find?_isSome_iff.2 (List.mem_map_of_mem member))
  rw [found, List.inj_on_of_nodup_map once (mem_of_find? found) member (find?_key found)]

theorem find?_isSome_of_sameKeys {ps qs : List (Property Shape)} (agree : sameKeys ps qs) (key : Text) :
    (find? ps key).isSome ↔ (find? qs key).isSome := by
  simp only [sameKeys, Bool.and_eq_true, List.all_eq_true] at agree
  rw [find?_isSome_iff, find?_isSome_iff, List.mem_map, List.mem_map]
  constructor
  · rintro ⟨p, member, rfl⟩
    exact List.mem_map.1 (find?_isSome_iff.1 (agree.1 p member))
  · rintro ⟨q, member, rfl⟩
    exact List.mem_map.1 (find?_isSome_iff.1 (agree.2 q member))

/-- Two lists of properties have the same keys when every key of one is a key of the other. -/
theorem sameKeys_iff {ps qs : List (Property Shape)} :
    sameKeys ps qs ↔ ∀ key, key ∈ ps.map (·.key) ↔ key ∈ qs.map (·.key) := by
  constructor
  · intro agree key
    rw [← find?_isSome_iff, ← find?_isSome_iff]
    exact find?_isSome_of_sameKeys agree key
  · intro agree
    simp only [sameKeys, Bool.and_eq_true, List.all_eq_true, find?_isSome_iff]
    constructor
    · exact fun p member => (agree p.key).1 (List.mem_map_of_mem member)
    · exact fun q member => (agree q.key).2 (List.mem_map_of_mem member)

namespace Shape

theorem sameAll_append (pairs rest : List (Shape × Shape)) :
    sameAll (pairs ++ rest) = (sameAll pairs && sameAll rest) := by
  fun_induction sameAll pairs with
  | case1 => simp
  | case2 a b pairs children found ih =>
    rw [List.cons_append, sameAll]
    split
    · next others again =>
      cases found.symm.trans again
      rw [← List.append_assoc, ih]
    · next missing => cases found.symm.trans missing
  | case3 a b pairs missing =>
    rw [List.cons_append, sameAll]
    split
    · next others found => cases missing.symm.trans found
    · rfl

theorem sameAll_cons (a b : Shape) (rest : List (Shape × Shape)) :
    sameAll ((a, b) :: rest) = (same a b && sameAll rest) :=
  sameAll_append [(a, b)] rest

theorem sameAll_iff {pairs : List (Shape × Shape)} :
    sameAll pairs ↔ ∀ pair ∈ pairs, same pair.1 pair.2 := by
  induction pairs with
  | nil => simp [sameAll]
  | cons pair pairs ih =>
    obtain ⟨a, b⟩ := pair
    rw [sameAll_cons, Bool.and_eq_true, ih, List.forall_mem_cons]

/-- Two shapes are equal when their nodes agree and the children that belong together are equal. -/
theorem same_iff {a b : Shape} :
    same a b ↔ ∃ children, childPairs? a b = some children ∧
      ∀ pair ∈ children, same pair.1 pair.2 := by
  rw [same, sameAll]
  split
  · next children found =>
    rw [List.append_nil, sameAll_iff, found]
    simp
  · next missing => simp [missing]

theorem childPairs?_isSome_of_same {a b : Shape} (equal : same a b) : (childPairs? a b).isSome := by
  obtain ⟨children, agree, _⟩ := same_iff.1 equal
  rw [agree]
  rfl

@[simp] theorem same_array (a b : Shape) : same (.array a) (.array b) ↔ same a b := by
  rw [same_iff]
  simp [childPairs?]

theorem same_union (as bs : List Shape) :
    same (.union as) (.union bs) ↔ List.Forall₂ (fun a b => same a b) as bs := by
  rw [same_iff, List.forall₂_iff_zip]
  simp [childPairs?]

theorem same_object (n m : Text) (ps qs : List (Property Shape)) :
    same (.object n ps) (.object m qs) ↔
      sameKeys ps qs ∧ ∀ p ∈ ps, ∀ q, find? qs p.key = some q → same p.shape q.shape := by
  rw [same_iff]
  by_cases agree : sameKeys ps qs
  · simp only [childPairs?, agree, if_true, Option.some.injEq, exists_eq_left', true_and,
      List.mem_filterMap, Option.map_eq_some_iff]
    constructor
    · intro children p member q found
      exact children (p.shape, q.shape) ⟨p, member, q, found, rfl⟩
    · rintro children pair ⟨p, member, q, found, rfl⟩
      exact children p member q found
  · simp [childPairs?, agree]

/-! ## An equivalence -/

mutual

/-- Whether every object in the shape lists each key once. -/
def keysDistinct : Shape → Bool
  | .array element => keysDistinct element
  | .union variants => keysDistinctAll variants
  | .object _ properties =>
    decide (properties.map (·.key)).Nodup && keysDistinctProperties properties
  | _ => true

def keysDistinctAll : List Shape → Bool
  | [] => true
  | s :: rest => keysDistinct s && keysDistinctAll rest

def keysDistinctProperties : List (Property Shape) → Bool
  | [] => true
  | p :: rest => keysDistinct p.shape && keysDistinctProperties rest

end

theorem keysDistinct_union {variants : List Shape} :
    (union variants).keysDistinct ↔ ∀ s ∈ variants, s.keysDistinct := by
  rw [keysDistinct]
  induction variants with
  | nil => simp [keysDistinctAll]
  | cons s rest ih => rw [keysDistinctAll, Bool.and_eq_true, ih, List.forall_mem_cons]

theorem keysDistinct_object {name : Text} {properties : List (Property Shape)} :
    (object name properties).keysDistinct ↔
      (properties.map (·.key)).Nodup ∧ ∀ p ∈ properties, p.shape.keysDistinct := by
  have inner : keysDistinctProperties properties ↔ ∀ p ∈ properties, p.shape.keysDistinct := by
    induction properties with
    | nil => simp [keysDistinctProperties]
    | cons p rest ih => rw [keysDistinctProperties, Bool.and_eq_true, ih, List.forall_mem_cons]
  rw [keysDistinct, Bool.and_eq_true, decide_eq_true_eq, inner]

theorem same_refl {s : Shape} (distinct : s.keysDistinct) : same s s := by
  induction s with
  | array element ih => exact (same_array element element).2 (ih distinct)
  | union variants ih =>
    rw [same_union, List.forall₂_same]
    exact fun s member => ih s member (keysDistinct_union.1 distinct s member)
  | object name properties ih =>
    obtain ⟨once, inner⟩ := keysDistinct_object.1 distinct
    refine (same_object name name properties properties).2
      ⟨sameKeys_iff.2 fun _ => .rfl, fun p member q found => ?_⟩
    rw [find?_of_mem once member] at found
    cases found
    exact ih p member (inner p member)
  | _ => rw [same_iff]; exact ⟨[], rfl, by simp⟩

theorem same_symm {a b : Shape} (distinct : b.keysDistinct) (equal : same a b) : same b a := by
  induction a generalizing b with
  | array element ih =>
    cases b with
    | array other =>
      have inner := (same_array element other).1 equal
      exact (same_array other element).2 (ih distinct inner)
    | _ => cases childPairs?_isSome_of_same equal
  | union as ih =>
    cases b with
    | union bs =>
      obtain ⟨lengths, pairs⟩ := List.forall₂_iff_zip.1 ((same_union as bs).1 equal)
      refine (same_union bs as).2 (List.forall₂_iff_zip.2 ⟨lengths.symm, fun member => ?_⟩)
      rw [← List.zip_swap, List.mem_map] at member
      obtain ⟨⟨a, b⟩, member, swapped⟩ := member
      cases swapped
      have within := List.of_mem_zip member
      exact ih a within.1 (keysDistinct_union.1 distinct b within.2) (pairs member)
    | _ => cases childPairs?_isSome_of_same equal
  | object n ps ih =>
    cases b with
    | object m qs =>
      obtain ⟨agree, children⟩ := (same_object n m ps qs).1 equal
      obtain ⟨once, properties⟩ := keysDistinct_object.1 distinct
      refine (same_object m n qs ps).2
        ⟨sameKeys_iff.2 fun key => (sameKeys_iff.1 agree key).symm, fun q member p found => ?_⟩
      -- the property found here finds the other one back, since no other has its key
      have back : find? qs p.key = some q := find?_key found ▸ find?_of_mem once member
      have inside := mem_of_find? found
      exact ih p inside (properties q member) (children p inside q back)
    | _ => cases childPairs?_isSome_of_same equal
  | _ =>
    have agree := childPairs?_isSome_of_same equal
    cases b <;> cases agree
    exact equal

theorem same_trans {a b c : Shape} (first : same a b) (second : same b c) : same a c := by
  induction a generalizing b c with
  | array element ih =>
    cases b with
    | array between =>
      cases c with
      | array other =>
        rw [same_array] at first second ⊢
        exact ih first second
      | _ => cases childPairs?_isSome_of_same second
    | _ => cases childPairs?_isSome_of_same first
  | union as ih =>
    cases b with
    | union bs =>
      cases c with
      | union cs =>
        rw [same_union] at first second ⊢
        induction first generalizing cs with
        | nil => exact second
        | @cons a b as bs here rest ih' =>
          cases second with
          | @cons _ c _ cs here' rest' =>
            refine .cons ?_ (ih' (fun s member => ih s (List.mem_cons_of_mem a member)) _ rest')
            exact ih a List.mem_cons_self here here'
      | _ => cases childPairs?_isSome_of_same second
    | _ => cases childPairs?_isSome_of_same first
  | object n ps ih =>
    cases b with
    | object m qs =>
      cases c with
      | object k rs =>
        rw [same_object] at first second ⊢
        have keys (key : Text) := (sameKeys_iff.1 first.1 key).trans (sameKeys_iff.1 second.1 key)
        refine ⟨sameKeys_iff.2 keys, fun p member r found => ?_⟩
        have declared := (sameKeys_iff.1 first.1 p.key).1 (List.mem_map_of_mem member)
        obtain ⟨q, between⟩ := Option.isSome_iff_exists.1 (find?_isSome_iff.2 declared)
        have here := first.2 p member q between
        have there := second.2 q (mem_of_find? between) r (by rwa [find?_key between])
        exact ih p member here there
      | _ => cases childPairs?_isSome_of_same second
    | _ => cases childPairs?_isSome_of_same first
  | _ =>
    have agree := childPairs?_isSome_of_same first
    cases b <;> cases agree
    exact second

end Shape

end JsonShape
