import JsonShape.Json.Reader
import JsonShape.Proofs.Discovery
import JsonShape.Proofs.Outline
import Mathlib.Data.List.Nodup

/-! Objects that list each key once.

Setting a key never lists it again, so the objects in a value that is read from a text list each key once,
whatever keys the text repeats. So do the objects in the shape of such a value.
-/

set_option autoImplicit false

namespace JsonShape.Json

namespace Value

mutual

/-- Whether every object in the value lists each key once. -/
def keysDistinct : Value → Bool
  | .array elements => keysDistinctElements elements
  | .object members => decide (members.map (·.1)).Nodup && keysDistinctMembers members
  | _ => true

def keysDistinctElements : List Value → Bool
  | [] => true
  | v :: rest => keysDistinct v && keysDistinctElements rest

def keysDistinctMembers : List (Text × Value) → Bool
  | [] => true
  | (_, v) :: rest => keysDistinct v && keysDistinctMembers rest

end

theorem keysDistinct_array {elements : List Value} :
    (array elements).keysDistinct ↔ ∀ v ∈ elements, v.keysDistinct := by
  rw [keysDistinct]
  induction elements with
  | nil => simp [keysDistinctElements]
  | cons v rest ih => rw [keysDistinctElements, Bool.and_eq_true, ih, List.forall_mem_cons]

theorem keysDistinct_object {members : List Member} :
    (object members).keysDistinct ↔
      (members.map (·.1)).Nodup ∧ ∀ m ∈ members, m.2.keysDistinct := by
  have inner : keysDistinctMembers members ↔ ∀ m ∈ members, m.2.keysDistinct := by
    induction members with
    | nil => simp [keysDistinctMembers]
    | cons m rest ih => rw [keysDistinctMembers, Bool.and_eq_true, ih, List.forall_mem_cons]
  rw [keysDistinct, Bool.and_eq_true, decide_eq_true_eq, inner]

end Value

/-! ## Members set one by one -/

theorem keys_put (members : List Member) (key : Text) (value : Value) :
    (put members key value).map (·.1) =
      if key ∈ members.map (·.1) then members.map (·.1) else members.map (·.1) ++ [key] := by
  have listed : members.any (·.1 = key) = true ↔ key ∈ members.map (·.1) := by
    simp [List.any_eq_true]
  rw [put]
  by_cases known : key ∈ members.map (·.1)
  · rw [if_pos (listed.2 known), if_pos known, List.map_map]
    refine List.map_congr_left fun m _ => ?_
    by_cases same : m.1 = key <;> simp [same]
  · rw [if_neg (listed.not.2 known), if_neg known, List.map_append, List.map_singleton]

theorem mem_put {members : List Member} {key : Text} {value : Value} {m : Member}
    (member : m ∈ put members key value) : m = (key, value) ∨ m ∈ members := by
  rw [put] at member
  split at member
  · obtain ⟨other, among, rfl⟩ := List.mem_map.1 member
    split
    · exact .inl rfl
    · exact .inr among
  · rcases List.mem_append.1 member with before | last
    · exact .inr before
    · exact .inl (List.mem_singleton.1 last)

structure Proper (members : List Member) : Prop where
  once : (members.map (·.1)).Nodup
  values : ∀ m ∈ members, m.2.keysDistinct

theorem Proper.put {members : List Member} (proper : Proper members) (key : Text) {value : Value}
    (distinct : value.keysDistinct) : Proper (put members key value) where
  once := by
    rw [keys_put]
    split
    · exact proper.once
    · next unknown =>
      refine List.nodup_append'.2 ⟨proper.once, List.nodup_singleton key, ?_⟩
      rwa [List.disjoint_singleton]
  values m member := by
    rcases mem_put member with set | before
    · rw [set]
      exact distinct
    · exact proper.values m before

theorem proper_ofPairs {pairs : List Member} (values : ∀ m ∈ pairs, m.2.keysDistinct) :
    Proper (ofPairs pairs) := by
  -- the fold may have set some members already
  have folded (members : List Member) (proper : Proper members) :
      Proper (pairs.foldl (fun members m => put members m.1 m.2) members) := by
    induction pairs generalizing members with
    | nil => exact proper
    | cons m rest ih =>
      exact ih (fun w member => values w (List.mem_cons_of_mem m member)) _
        (proper.put m.1 (values m List.mem_cons_self))
  exact folded [] ⟨List.nodup_nil, fun _ member => absurd member List.not_mem_nil⟩

/-! ## Reading -/

namespace Frame

def keysDistinct : Frame → Prop
  | .element before => ∀ v ∈ before, v.keysDistinct
  | .member before _ => ∀ m ∈ before, m.2.keysDistinct

end Frame

namespace State

def keysDistinct : State → Prop
  | .value stack | .arrayStart stack | .objectStart stack => ∀ f ∈ stack, f.keysDistinct
  | .key before stack | .colon before _ stack =>
    (∀ m ∈ before, m.2.keysDistinct) ∧ ∀ f ∈ stack, f.keysDistinct
  | .delimiter v stack => v.keysDistinct ∧ ∀ f ∈ stack, f.keysDistinct

theorem nextValue_keysDistinct {rules : Rules} {stack : List Frame} {here : Text} {token : Token}
    {after : State} (frames : ∀ f ∈ stack, f.keysDistinct)
    (goesOn : nextValue rules stack here token = .ok after) : after.keysDistinct := by
  cases token with
  | null | bool b | string s =>
    cases goesOn
    exact ⟨rfl, frames⟩
  | numeral n =>
    simp only [nextValue] at goesOn
    split at goesOn
    · cases goesOn
      exact ⟨rfl, frames⟩
    · cases goesOn
  | constant c =>
    simp only [nextValue] at goesOn
    split at goesOn
    · cases goesOn
      exact ⟨rfl, frames⟩
    · cases goesOn
  | openArray | openObject =>
    simp only [nextValue] at goesOn
    split at goesOn
    · cases goesOn
      exact frames
    · cases goesOn
  | _ => cases goesOn

theorem nextKey_keysDistinct {before : List Member} {stack : List Frame} {here : Text} {token : Token}
    {after : State} (members : ∀ m ∈ before, m.2.keysDistinct) (frames : ∀ f ∈ stack, f.keysDistinct)
    (goesOn : nextKey before stack here token = .ok after) : after.keysDistinct := by
  cases token with
  | string s =>
    cases goesOn
    exact ⟨members, frames⟩
  | _ => cases goesOn

theorem nextDelimiter_keysDistinct {v : Value} {stack : List Frame} {here : Text} {token : Token}
    {after : State} (distinct : v.keysDistinct) (frames : ∀ f ∈ stack, f.keysDistinct)
    (goesOn : nextDelimiter v stack here token = .ok after) : after.keysDistinct := by
  match stack with
  | [] => cases goesOn
  | .element before :: stack =>
    obtain ⟨elements, outer⟩ := List.forall_mem_cons.1 frames
    have longer : ∀ w ∈ v :: before, w.keysDistinct := List.forall_mem_cons.2 ⟨distinct, elements⟩
    cases token with
    | comma =>
      cases goesOn
      exact List.forall_mem_cons.2 ⟨longer, outer⟩
    | closeArray =>
      cases goesOn
      refine ⟨Value.keysDistinct_array.2 fun w member => ?_, outer⟩
      exact longer w (List.mem_reverse.1 member)
    | _ => cases goesOn
  | .member before name :: stack =>
    obtain ⟨members, outer⟩ := List.forall_mem_cons.1 frames
    have longer : ∀ m ∈ (name, v) :: before, m.2.keysDistinct :=
      List.forall_mem_cons.2 ⟨distinct, members⟩
    cases token with
    | comma =>
      cases goesOn
      exact ⟨longer, outer⟩
    | closeObject =>
      cases goesOn
      have proper : Proper (ofPairs ((name, v) :: before).reverse) :=
        proper_ofPairs fun m member => longer m (List.mem_reverse.1 member)
      exact ⟨Value.keysDistinct_object.2 ⟨proper.once, proper.values⟩, outer⟩
    | _ => cases goesOn

theorem next_keysDistinct {rules : Rules} {state after : State} {here : Text} {token : Token}
    (distinct : state.keysDistinct) (goesOn : state.next rules here token = .ok after) :
    after.keysDistinct := by
  cases state with
  | value stack => exact nextValue_keysDistinct distinct goesOn
  | arrayStart stack =>
    simp only [next] at goesOn
    split at goesOn
    · cases goesOn
      exact ⟨rfl, distinct⟩
    · refine nextValue_keysDistinct (List.forall_mem_cons.2 ⟨?_, distinct⟩) goesOn
      exact fun v member => absurd member List.not_mem_nil
  | objectStart stack =>
    simp only [next] at goesOn
    split at goesOn
    · cases goesOn
      exact ⟨rfl, distinct⟩
    · exact nextKey_keysDistinct (fun m member => absurd member List.not_mem_nil) distinct goesOn
  | key before stack => exact nextKey_keysDistinct distinct.1 distinct.2 goesOn
  | colon before name stack =>
    simp only [next] at goesOn
    split at goesOn
    · cases goesOn
      exact List.forall_mem_cons.2 ⟨distinct.1, distinct.2⟩
    · cases goesOn
  | delimiter v stack => exact nextDelimiter_keysDistinct distinct.1 distinct.2 goesOn

theorem run_keysDistinct {rules : Rules} {state : State} {t : Text} {v : Value}
    (distinct : state.keysDistinct) (read : state.run rules t = .ok v) : v.keysDistinct := by
  fun_induction run rules state t with
  | case1 state t shape =>
    unfold finish at read
    split at read
    · cases read
      exact distinct.1
    all_goals cases read
  | case2 state t c rest shape after goesOn ih => exact ih (next_keysDistinct distinct goesOn) read
  | case3 state t c rest shape fault stops => cases read

end State

/-- A value that was read lists each key of an object once. -/
theorem decode_keysDistinct {rules : Rules} {t : Text} {v : Value} (read : decode rules t = .ok v) :
    v.keysDistinct := by
  rw [decode] at read
  split at read
  · cases read
  · have nothing : State.keysDistinct (.value []) := fun f member => absurd member List.not_mem_nil
    exact State.run_keysDistinct nothing read

end JsonShape.Json

namespace JsonShape

open Json (Value)

/-! ## Shapes -/

namespace Shape

theorem keysDistinct_leaves {s leaf : Shape} (distinct : s.keysDistinct) (member : leaf ∈ s.leaves) :
    leaf.keysDistinct := by
  induction s with
  | union variants ih =>
    rw [leaves_union, List.mem_flatMap] at member
    obtain ⟨variant, among, inside⟩ := member
    exact ih variant among (keysDistinct_union.1 distinct variant among) inside
  | _ => rwa [List.mem_singleton.1 member]

theorem keysDistinct_flatMap_leaves {shapes : List Shape} (each : ∀ s ∈ shapes, s.keysDistinct) :
    ∀ t ∈ shapes.flatMap leaves, t.keysDistinct := by
  intro t member
  obtain ⟨s, listed, leaf⟩ := List.mem_flatMap.1 member
  exact keysDistinct_leaves (each s listed) leaf

theorem keysDistinct_ofVariants {variants : List Shape} (each : ∀ s ∈ variants, s.keysDistinct) :
    (ofVariants variants).keysDistinct := by
  match variants with
  | [] => rfl
  | [only] => exact each only (List.mem_singleton_self only)
  | first :: second :: rest => exact keysDistinct_union.2 each

theorem keysDistinct_merge {shapes : List Shape} (each : ∀ s ∈ shapes, s.keysDistinct) :
    (merge shapes).keysDistinct := by
  cases shapes with
  | nil => rfl
  | cons s rest =>
    refine keysDistinct_ofVariants fun t chosen => ?_
    obtain ⟨whole, member, leaf⟩ := mem_leaves_of_mem_choices chosen
    exact keysDistinct_leaves (each whole member) leaf

theorem keysDistinct_splitNull {s : Shape} (distinct : s.keysDistinct) :
    s.splitNull.1.keysDistinct := by
  cases s with
  | union variants =>
    rw [splitNull]
    split
    · exact distinct
    · split
      · rfl
      · exact keysDistinct_ofVariants fun t member =>
          keysDistinct_union.1 distinct t (List.mem_of_mem_filter member)
  | _ => exact distinct

theorem keysDistinct_of_unnamed {s : Shape} (distinct : s.unnamed.keysDistinct) : s.keysDistinct := by
  induction s with
  | array element ih => exact ih distinct
  | union variants ih =>
    rw [unnamed_union, keysDistinct_union, List.forall_mem_map] at distinct
    exact keysDistinct_union.2 fun t member => ih t member (distinct t member)
  | object name properties ih =>
    rw [unnamed_object, keysDistinct_object, List.map_map, List.forall_mem_map] at distinct
    exact keysDistinct_object.2 ⟨distinct.1, fun p member => ih p member (distinct.2 p member)⟩
  | _ => rfl

end Shape

open Shape

theorem Record.keysDistinct_seen {records : List Record} (each : ∀ r ∈ records, r.toShape.keysDistinct)
    (key : Text) : ∀ s ∈ (seen records key).map (·.shape), s.keysDistinct := by
  refine List.forall_mem_map.2 fun p member => ?_
  obtain ⟨r, present, found⟩ := mem_seen.1 member
  exact (keysDistinct_object.1 (each r present)).2 p (mem_of_find? found)

theorem Record.merge_keysDistinct {records : List Record}
    (each : ∀ r ∈ records, r.toShape.keysDistinct) (name : Text) :
    (merge records name).toShape.keysDistinct := by
  match records with
  | [] => rfl
  | [only] => exact each only (List.mem_singleton_self only)
  | first :: second :: rest =>
    rw [merge_several]
    generalize first :: second :: rest = records at *
    refine keysDistinct_object.2 ⟨?_, fun p member => ?_⟩
    · rw [map_key_mergedProperty]
      exact nodup_eraseDups _
    · obtain ⟨key, _, rfl⟩ := List.mem_map.1 member
      exact keysDistinct_splitNull (keysDistinct_merge (keysDistinct_seen each key))

namespace Inference

theorem outline_keysDistinct {dates : Bool} {v : Value} (distinct : v.keysDistinct) :
    (outline dates v).keysDistinct := by
  induction v with
  | string s => rw [outline]; split <;> rfl
  | array elements ih =>
    rw [outline_array]
    have each : ∀ s ∈ elements.map (outline dates), s.keysDistinct :=
      List.forall_mem_map.2 fun v among =>
        ih v among (Value.keysDistinct_array.1 distinct v among)
    refine keysDistinct_merge fun s member => ?_
    rcases mem_elementShapes member with ⟨among, _⟩ | rfl
    · exact each s among
    · refine Record.merge_keysDistinct (fun r found => ?_) []
      obtain ⟨s, among, object⟩ := List.mem_filterMap.1 found
      exact record?_eq_some.1 object ▸ each s among
  | object members ih =>
    obtain ⟨once, inner⟩ := Value.keysDistinct_object.1 distinct
    rw [outline_object]
    refine keysDistinct_object.2 ⟨?_, List.forall_mem_map.2 fun m among => ?_⟩
    · rwa [map_key_propertyOf]
    · have known := ih m among (inner m among)
      rw [propertyOf]
      split
      · rfl
      · exact known
  | _ => rfl

/-- A value that lists each key once has a shape that does. -/
theorem infer_keysDistinct (o : Options) {v : Value} (distinct : v.keysDistinct) :
    (infer o v).shape.keysDistinct := by
  apply Shape.keysDistinct_of_unnamed
  rw [infer_unnamed]
  exact outline_keysDistinct distinct

end Inference

end JsonShape
