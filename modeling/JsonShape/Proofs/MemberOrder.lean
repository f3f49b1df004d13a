import JsonShape.Proofs.Alike
import JsonShape.Proofs.DistinctKeys
import JsonShape.Proofs.Observations

/-! The order of members.

A value whose members are listed in another order has a shape alike, as many members and the same
diagnostics, which then arise in another order.
-/

set_option autoImplicit false

namespace JsonShape

open Json (Value Member)

theorem exists_partner {α β : Type} {R : α → β → Prop} {l : List α} {l' : List β} {b : β}
    (related : List.Forall₂ R l l') (member : b ∈ l') : ∃ a ∈ l, R a b := by
  induction related with
  | nil => cases member
  | cons here rest ih =>
    rcases List.mem_cons.1 member with rfl | later
    · exact ⟨_, List.mem_cons_self, here⟩
    · obtain ⟨a, among, partner⟩ := ih later
      exact ⟨a, List.mem_cons_of_mem _ among, partner⟩

namespace Json.Value

theorem forall₂_members {R : Value → Value → Prop} {members others : List Member}
    (keys : members.map (·.1) = others.map (·.1))
    (each : List.Forall₂ R (members.map (·.2)) (others.map (·.2))) :
    List.Forall₂ (fun m n => m.1 = n.1 ∧ R m.2 n.2) members others := by
  rw [← List.forall₂_eq_eq_eq, List.forall₂_map_left_iff, List.forall₂_map_right_iff] at keys
  rw [List.forall₂_map_left_iff, List.forall₂_map_right_iff] at each
  exact List.forall₂_iff_zip.2 ⟨keys.length_eq, fun paired =>
    ⟨List.forall₂_zip keys paired, List.forall₂_zip each paired⟩⟩

/-- Where keys are listed once, a member is related to the one with its key. -/
theorem related_of_key {R : Member → Member → Prop} {members others : List Member}
    (once : (members.map (·.1)).Nodup)
    (each : List.Forall₂ (fun m n => m.1 = n.1 ∧ R m n) members others) {m n : Member}
    (first : m ∈ members) (second : n ∈ others) (same : m.1 = n.1) : R m n := by
  obtain ⟨partner, placed, sameKey, related⟩ := exists_partner each second
  obtain rfl := List.inj_on_of_nodup_map once first placed (same.trans sameKey.symm)
  exact related

/-- The members of any objects in the value are listed in another order. Elements stay where they are. -/
inductive Reorders : Value → Value → Prop where
  | leaf {v : Value} (bare : v.isContainer = false) : Reorders v v
  | array {elements others : List Value} (each : List.Forall₂ Reorders elements others) :
      Reorders (.array elements) (.array others)
  | object {members between others : List Member} (reordered : members.Perm between)
      (keys : between.map (·.1) = others.map (·.1))
      (each : List.Forall₂ Reorders (between.map (·.2)) (others.map (·.2))) :
      Reorders (.object members) (.object others)

theorem Reorders.induct {motive : Value → Value → Prop}
    (leaf : ∀ v, v.isContainer = false → motive v v)
    (array : ∀ elements others, List.Forall₂ motive elements others →
      motive (.array elements) (.array others))
    (object : ∀ members between others, members.Perm between →
      List.Forall₂ (fun m n => m.1 = n.1 ∧ motive m.2 n.2) between others →
      motive (.object members) (.object others))
    {v w : Value} (reordered : v.Reorders w) : motive v w := by
  induction v generalizing w with
  | array elements ih =>
    cases reordered with
    | leaf bare => cases bare
    | array each =>
      have inner := (List.forall₂_and_left _ _).2 ⟨ih, each⟩
      exact array elements _ (inner.imp fun _ _ both => both.1 both.2)
  | object members ih =>
    cases reordered with
    | leaf bare => cases bare
    | @object _ between others reordered keys each =>
      have known : ∀ m ∈ between, ∀ w, m.2.Reorders w → motive m.2 w :=
        fun m among w => ih m (reordered.mem_iff.2 among)
      have inner := (List.forall₂_and_left _ _).2 ⟨known, forall₂_members keys each⟩
      exact object members between others reordered
        (inner.imp fun _ n both => both.2.imp_right (both.1 n.2))
  | _ =>
    cases reordered with
    | leaf bare => exact leaf _ bare

theorem Reorders.isContainer {v w : Value} (reordered : v.Reorders w) : v.isContainer = w.isContainer := by
  cases reordered <;> rfl

end Json.Value

namespace Inference

/-! ## Shapes -/

theorem propertyOf_alike (key : Text) {a b : Shape} (alike : a.Alike b) :
    (propertyOf key a).Alike (propertyOf key b) := by
  rw [propertyOf, propertyOf, alike.isNull]
  split
  · exact ⟨rfl, rfl, rfl, .unknown⟩
  · exact ⟨rfl, rfl, rfl, alike⟩

theorem elementShapes_alike {shapes others : List Shape} (alike : List.Forall₂ Shape.Alike shapes others) :
    List.Forall₂ Shape.Alike (elementShapes shapes) (elementShapes others) := by
  have plain : List.Forall₂ Shape.Alike (shapes.filter (!·.isObject)) (others.filter (!·.isObject)) :=
    List.rel_filter (fun _ _ same => Bool.eq_iff_iff.1 (congrArg (!·) same.isObject)) alike
  have records : List.Forall₂ Record.Alike (shapes.filterMap Shape.record?)
      (others.filterMap Shape.record?) :=
    List.rel_filterMap (fun _ _ same => same.record?) alike
  refine List.rel_append plain ?_
  generalize shapes.filterMap Shape.record? = found, others.filterMap Shape.record? = found' at records
  cases records with
  | nil => exact .nil
  | cons here rest => exact .cons (Record.merge_alike (.cons here rest) [] []) .nil

/-! ## Diagnostics -/

theorem arrayFinding?_alike {shapes others : List Shape} (alike : List.Forall₂ Shape.Alike shapes others) :
    arrayFinding? shapes = arrayFinding? others := by
  have objects : shapes.any Shape.isObject = others.any Shape.isObject :=
    any_congr (fun _ _ same => same.isObject) alike
  have plain : shapes.any (!·.isObject) = others.any (!·.isObject) :=
    any_congr (fun _ _ same => congrArg (!·) same.isObject) alike
  have all : shapes.all Shape.isObject = others.all Shape.isObject := by
    rw [← Bool.not_inj_iff, List.not_all_eq_any_not, List.not_all_eq_any_not, plain]
  have empty : shapes.isEmpty = others.isEmpty := by
    cases alike <;> rfl
  rw [arrayFinding?, arrayFinding?, empty, all, objects, (Shape.respected_alike.merge alike).isUnion]

theorem notesElements_perm {dates : Bool} {elements others : List Value}
    (each : List.Forall₂ (fun v w => ∀ path, (notes dates path v).Perm (notes dates path w))
      elements others) (path : Path) (i : Nat) :
    (notesElements dates path i elements).Perm (notesElements dates path i others) := by
  induction each generalizing i with
  | nil => exact .refl []
  | cons here rest ih => exact (here _).append (ih (i + 1))

theorem notesMembers_perm {dates : Bool} {members others : List Member}
    (each : List.Forall₂ (fun m n => m.1 = n.1 ∧
      ∀ path, (notes dates path m.2).Perm (notes dates path n.2)) members others) (path : Path) :
    (notesMembers dates path members).Perm (notesMembers dates path others) := by
  induction each with
  | nil => exact .refl []
  | @cons m n members others here rest ih =>
    obtain ⟨same, inner⟩ := here
    rw [notesMembers, notesMembers, same]
    exact (inner _).append ih

/-! ## Reordered values -/

structure Agree (dates : Bool) (v w : Value) : Prop where
  shape : (outline dates v).Alike (outline dates w)
  notes : ∀ path, (notes dates path v).Perm (notes dates path w)
  members : v.memberCount = w.memberCount

theorem agree_leaf {dates : Bool} {v : Value} (bare : v.isContainer = false) : Agree dates v v := by
  refine ⟨?_, fun path => .refl _, rfl⟩
  cases v with
  | string s => rw [outline]; split <;> constructor
  | array elements => cases bare
  | object members => cases bare
  | _ => constructor

theorem agree_array {dates : Bool} {elements others : List Value}
    (each : List.Forall₂ (Agree dates) elements others) :
    Agree dates (.array elements) (.array others) := by
  have shapes : List.Forall₂ Shape.Alike (elements.map (outline dates)) (others.map (outline dates)) :=
    List.rel_map (fun _ _ both => both.shape) each
  have counts : elements.map Value.memberCount = others.map Value.memberCount :=
    List.forall₂_eq_eq_eq ▸ List.rel_map (fun _ _ both => both.members) each
  constructor
  · rw [outline_array, outline_array]
    exact .array (Shape.respected_alike.merge (elementShapes_alike shapes))
  · intro path
    rw [notes, notes, outlineElements_eq, outlineElements_eq, arrayFinding?_alike shapes]
    exact (notesElements_perm (each.imp fun _ _ both => both.notes) path 0).append_right _
  · rw [Value.memberCount, Value.memberCount, Value.memberCountElements_eq,
      Value.memberCountElements_eq, counts]

theorem agree_object {dates : Bool} {members between others : List Member}
    (once : (members.map (·.1)).Nodup) (reordered : members.Perm between)
    (each : List.Forall₂ (fun m n => m.1 = n.1 ∧ Agree dates m.2 n.2) between others) :
    Agree dates (.object members) (.object others) := by
  have keys : between.map (·.1) = others.map (·.1) :=
    List.forall₂_eq_eq_eq ▸ List.rel_map (fun _ _ both => both.1) each
  have counts : between.map (·.2.memberCount) = others.map (·.2.memberCount) :=
    List.forall₂_eq_eq_eq ▸ List.rel_map (fun _ _ both => both.2.members) each
  constructor
  · rw [outline_object, outline_object]
    refine Shape.alike_object.2 ⟨?_, fun p first q second same => ?_⟩
    · rw [map_key_propertyOf, map_key_propertyOf, ← keys]
      exact reordered.map (·.1)
    · obtain ⟨m, among, rfl⟩ := List.mem_map.1 first
      obtain ⟨n, among', rfl⟩ := List.mem_map.1 second
      rw [propertyOf_key, propertyOf_key] at same
      have placed := reordered.mem_iff.1 among
      have both := Value.related_of_key ((reordered.map (·.1)).nodup_iff.1 once) each placed among' same
      rw [same]
      exact propertyOf_alike n.1 both.shape
  · intro path
    rw [notes, notes, notesMembers_eq]
    refine (reordered.flatMap_right _).trans ?_
    rw [← notesMembers_eq]
    exact notesMembers_perm (each.imp fun _ _ both => both.imp_right Agree.notes) path
  · rw [Value.memberCount, Value.memberCount, Value.memberCountMembers_eq,
      Value.memberCountMembers_eq, reordered.length_eq, each.length_eq,
      (reordered.map (·.2.memberCount)).sum_nat, counts]

theorem agree_of_reorders {dates : Bool} {v w : Value} (distinct : v.keysDistinct)
    (reordered : v.Reorders w) : Agree dates v w := by
  revert distinct
  refine reordered.induct (motive := fun v w => v.keysDistinct → Agree dates v w) ?leaf ?array ?object
  case leaf => exact fun v bare _ => agree_leaf bare
  case array =>
    intro elements others each distinct
    have known := (List.forall₂_and_left _ _).2 ⟨Value.keysDistinct_array.1 distinct, each⟩
    exact agree_array (known.imp fun _ _ both => both.2 both.1)
  case object =>
    intro members between others reordered each distinct
    obtain ⟨once, inner⟩ := Value.keysDistinct_object.1 distinct
    have known := (List.forall₂_and_left _ _).2
      ⟨fun m member => inner m (reordered.mem_iff.2 member), each⟩
    exact agree_object once reordered (known.imp fun _ _ both => both.2.imp_right (· both.1))

end Inference

/-! ## Names again -/

theorem Shape.Alike.of_unnamed {a b : Shape} (alike : a.unnamed.Alike b.unnamed) : a.Alike b := by
  induction a generalizing b with
  | array element ih =>
    cases b with
    | array other =>
      cases alike with
      | array inner => exact .array (ih inner)
    | _ => cases alike
  | union variants ih =>
    cases b with
    | union others =>
      rw [unnamed_union, unnamed_union] at alike
      cases alike with
      | union each =>
        rw [List.forall₂_map_left_iff, List.forall₂_map_right_iff] at each
        have within := (List.forall₂_and_left _ _).2 ⟨ih, each⟩
        exact .union (within.imp fun _ _ both => both.1 both.2)
    | _ => cases alike
  | object name properties ih =>
    cases b with
    | object other qs =>
      rw [unnamed_object, unnamed_object, alike_object, List.map_map, List.map_map] at alike
      refine alike_object.2 ⟨alike.1, fun p first q second same => ?_⟩
      have both := alike.2 _ (List.mem_map_of_mem first) _ (List.mem_map_of_mem second) same
      exact ⟨same, both.optional, both.nullable, ih p first both.shape⟩
    | _ => cases alike
  | _ =>
    cases b <;> cases alike
    constructor

structure Inferred.Alike (found other : Inferred) : Prop where
  shape : found.shape.Alike other.shape
  fieldCount : found.fieldCount = other.fieldCount
  diagnostics : found.diagnostics.Perm other.diagnostics

namespace Inference

/-- The order of members does not matter to inference, up to names and order. Values that were read list
each key once. -/
theorem infer_reordered (o : Options) {v w : Value} (distinct : v.keysDistinct)
    (reordered : v.Reorders w) : (infer o v).Alike (infer o w) := by
  have agree : Agree o.detectsDates v w := agree_of_reorders distinct reordered
  constructor
  · apply Shape.Alike.of_unnamed
    rw [infer_unnamed, infer_unnamed]
    exact agree.shape
  · rw [infer_fieldCount, infer_fieldCount, agree.members]
  · rw [infer_diagnostics, infer_diagnostics, reordered.isContainer]
    exact (agree.notes []).append_left _

def unevenRows : Value :=
  .array [
    .object [("a", .array [.null, .string "x"]), ("b", .object [("c", .null), ("d", .array [])])],
    .object [("b", .object [("d", .bool true), ("c", .string "2024-01-02")]), ("e", .null)]]

def unevenRowsTurned : Value :=
  .array [
    .object [("b", .object [("d", .array []), ("c", .null)]), ("a", .array [.null, .string "x"])],
    .object [("e", .null), ("b", .object [("c", .string "2024-01-02"), ("d", .bool true)])]]

theorem unevenRows_reorders : unevenRows.Reorders unevenRowsTurned := by
  have turned {k l : Text} {v w v' w' : Value} (first : v.Reorders v') (second : w.Reorders w') :
      (Value.object [(k, v), (l, w)]).Reorders (.object [(l, w'), (k, v')]) :=
    .object (.swap _ _ []) rfl (.cons second (.cons first .nil))
  have elements : (Value.array [.null, .string "x"]).Reorders (.array [.null, .string "x"]) :=
    .array (.cons (.leaf rfl) (.cons (.leaf rfl) .nil))
  have first := turned (k := "a") (l := "b") elements
    (turned (k := "c") (l := "d") (.leaf (v := .null) rfl) (.array .nil))
  have second := turned (k := "b") (l := "e")
    (turned (k := "d") (l := "c") (.leaf (v := .bool true) rfl) (.leaf (v := .string "2024-01-02") rfl))
    (.leaf (v := .null) rfl)
  exact .array (.cons first (.cons second .nil))

theorem infer_reordered_unevenRows :
    unevenRows.keysDistinct ∧ unevenRows.Reorders unevenRowsTurned ∧
      (infer { detectsDates := true } unevenRows).Alike
        (infer { detectsDates := true } unevenRowsTurned) := by
  have distinct : unevenRows.keysDistinct = true := by cbv
  exact ⟨distinct, unevenRows_reorders,
    infer_reordered { detectsDates := true } distinct unevenRows_reorders⟩

end Inference

end JsonShape
