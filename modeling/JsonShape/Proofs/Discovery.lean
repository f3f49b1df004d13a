import JsonShape.Document.Declarations
import Mathlib.Data.List.Nodup

/-! Finding the objects of a shape.

An address leads from a shape to a node inside it, one position for each step down. The objects found are
those at some address, in the order of a recursive descent. Where no two names agree, an object has one
address and is found once.
-/

set_option autoImplicit false

namespace JsonShape.Shape

/-- Induction on a shape that treats all nodes alike. -/
theorem inside_induction {motive : Shape → Prop}
    (node : ∀ s, (∀ t ∈ s.inside, motive t) → motive s) (s : Shape) : motive s := by
  induction s with
  | array element ih =>
    apply node
    intro t member
    cases List.mem_singleton.1 member
    exact ih
  | union variants ih => exact node _ ih
  | object name properties ih =>
    apply node
    intro t member
    obtain ⟨p, inside, rfl⟩ := List.mem_map.1 member
    exact ih p inside
  | _ => exact node _ fun t member => absurd member List.not_mem_nil

theorem record?_eq_some {s : Shape} {r : Record} : s.record? = some r ↔ s = r.toShape := by
  constructor
  · intro found
    cases s with
    | object name properties => cases found; rfl
    | _ => cases found
  · rintro rfl
    rfl

/-! ## Preorder -/

theorem preorderVariants_eq (variants : List Shape) :
    preorderVariants variants = variants.flatMap preorder := by
  induction variants with
  | nil => rfl
  | cons s rest ih => rw [preorderVariants, ih, List.flatMap_cons]

theorem preorderProperties_eq (properties : List (Property Shape)) :
    preorderProperties properties = (properties.map (·.shape)).flatMap preorder := by
  induction properties with
  | nil => rfl
  | cons p rest ih => rw [preorderProperties, ih, List.map_cons, List.flatMap_cons]

theorem preorder_eq (s : Shape) : s.preorder = s.record?.toList ++ s.inside.flatMap preorder := by
  cases s with
  | array element => simp [preorder, record?, inside]
  | union variants => simp [preorder, record?, inside, preorderVariants_eq]
  | object name properties => simp [preorder, record?, inside, preorderProperties_eq]
  | _ => rfl

theorem recordsInto_eq (found : List Record) (pending : List Shape) :
    recordsInto found pending = (pending.flatMap preorder).reverse ++ found := by
  fun_induction recordsInto found pending with
  | case1 => rfl
  | case2 found s rest ih =>
    rw [ih, List.flatMap_append, List.flatMap_cons, preorder_eq s]
    cases s.record? <;> simp

theorem records_eq (s : Shape) : s.records = s.preorder := by
  rw [records, recordsInto_eq]
  simp

/-! ## Addresses -/

def nodeAt? : Shape → List Nat → Option Shape
  | s, [] => some s
  | s, i :: rest => s.inside[i]?.bind fun t => nodeAt? t rest

theorem mem_preorder {s : Shape} {r : Record} :
    r ∈ s.preorder ↔ ∃ address, s.nodeAt? address = some r.toShape := by
  induction s using inside_induction with
  | node s ih =>
    rw [preorder_eq, List.mem_append, Option.mem_toList, record?_eq_some, List.mem_flatMap]
    constructor
    · rintro (rfl | ⟨t, inside, found⟩)
      · exact ⟨[], rfl⟩
      · obtain ⟨address, leads⟩ := (ih t inside).1 found
        obtain ⟨i, position⟩ := List.mem_iff_getElem?.1 inside
        refine ⟨i :: address, ?_⟩
        rw [nodeAt?, position]
        exact leads
    · rintro ⟨address, leads⟩
      cases address with
      | nil => exact .inl (Option.some.inj leads)
      | cons i rest =>
        obtain ⟨t, position, leads⟩ := Option.bind_eq_some_iff.1 leads
        have inside := List.mem_of_getElem? position
        exact .inr ⟨t, inside, (ih t inside).2 ⟨rest, leads⟩⟩

/-! ## Names -/

def names (s : Shape) : List Text := s.preorder.map (·.name)

theorem names_eq (s : Shape) :
    s.names = (s.record?.map (·.name)).toList ++ s.inside.flatMap names := by
  rw [names, preorder_eq, List.map_append, List.map_flatMap]
  cases s.record? <;> rfl

theorem name_mem_names {s : Shape} {r : Record} {address : List Nat}
    (leads : s.nodeAt? address = some r.toShape) : r.name ∈ s.names :=
  List.mem_map_of_mem (mem_preorder.2 ⟨address, leads⟩)

theorem position_unique {shapes : List Shape} (distinct : (shapes.flatMap names).Nodup) {i j : Nat}
    {s t : Shape} (first : shapes[i]? = some s) (second : shapes[j]? = some t) {name : Text}
    (inFirst : name ∈ s.names) (inSecond : name ∈ t.names) : i = j := by
  obtain ⟨_, rfl⟩ := List.getElem?_eq_some_iff.1 first
  obtain ⟨_, rfl⟩ := List.getElem?_eq_some_iff.1 second
  have apart := List.pairwise_iff_getElem.1 (List.nodup_flatMap.1 distinct).2
  rcases Nat.lt_trichotomy i j with before | same | after
  · exact absurd inSecond (apart i j _ _ before inFirst)
  · exact same
  · exact absurd inFirst (apart j i _ _ after inSecond)

/-- The name of an object is not used again below it. -/
theorem address_eq_nil {s : Shape} (distinct : s.names.Nodup) {r : Record} (object : s = r.toShape)
    {address : List Nat} {other : Record} (leads : s.nodeAt? address = some other.toShape)
    (same : other.name = r.name) : address = [] := by
  cases address with
  | nil => rfl
  | cons i rest =>
    obtain ⟨t, position, leads⟩ := Option.bind_eq_some_iff.1 leads
    rw [names_eq, record?_eq_some.2 object] at distinct
    have below : other.name ∈ s.inside.flatMap names :=
      List.mem_flatMap.2 ⟨t, List.mem_of_getElem? position, name_mem_names leads⟩
    rw [same] at below
    exact absurd below (List.nodup_cons.1 distinct).1

theorem address_unique {s : Shape} (distinct : s.names.Nodup) {first second : List Nat}
    {r other : Record} (leads : s.nodeAt? first = some r.toShape)
    (leads' : s.nodeAt? second = some other.toShape) (same : r.name = other.name) :
    first = second := by
  -- step by step: at a common position the addresses go on in the same node, and elsewhere names differ
  induction first generalizing s second with
  | nil => exact (address_eq_nil distinct (Option.some.inj leads) leads' same.symm).symm
  | cons i rest ih =>
    cases second with
    | nil => exact address_eq_nil distinct (Option.some.inj leads') leads same
    | cons j rest' =>
      obtain ⟨t, position, leads⟩ := Option.bind_eq_some_iff.1 leads
      obtain ⟨t', position', leads'⟩ := Option.bind_eq_some_iff.1 leads'
      rw [names_eq] at distinct
      have below := (List.nodup_append.1 distinct).2.1
      have here : i = j :=
        position_unique below position position' (name_mem_names leads) (same ▸ name_mem_names leads')
      subst here
      cases position.symm.trans position'
      have each := (List.nodup_flatMap.1 below).1 t (List.mem_of_getElem? position)
      rw [ih each leads leads']

/-- Where names are distinct, the objects found and the addresses of objects belong to each other one to
one. -/
theorem found_once {s : Shape} (distinct : s.names.Nodup) :
    (∀ address (r : Record), s.nodeAt? address = some r.toShape → ∃! i : Nat, s.records[i]? = some r) ∧
      ∀ (i : Nat) (r : Record), s.records[i]? = some r → ∃! address, s.nodeAt? address = some r.toShape := by
  rw [records_eq]
  constructor
  · intro address r leads
    obtain ⟨i, found⟩ := List.mem_iff_getElem?.1 (mem_preorder.2 ⟨address, leads⟩)
    refine ⟨i, found, fun j again => ?_⟩
    obtain ⟨bound, _⟩ := List.getElem?_eq_some_iff.1 again
    exact (List.getElem?_inj bound distinct.of_map).1 (again.trans found.symm)
  · intro i r found
    obtain ⟨address, leads⟩ := mem_preorder.1 (List.mem_of_getElem? found)
    exact ⟨address, leads, fun other leads' => address_unique distinct leads' leads rfl⟩

end JsonShape.Shape
