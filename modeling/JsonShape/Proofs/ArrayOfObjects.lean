import JsonShape.Proofs.DateDetection
import JsonShape.Proofs.MergeAlgebra

/-! Arrays that hold objects.

All objects in an array make one. Which keys it has, and what is known under each of them, can be read off
the values and the shapes found for them, whether there are several objects to merge or one to rename. An
object with nothing merged into it yet is the same as its merge with no other, so the two need not be told
apart.
-/

set_option autoImplicit false

namespace JsonShape

open Json (Value Member)

namespace Shape

theorem record?_of_not_object {s : Shape} (other : s.isObject = false) : s.record? = none := by
  cases s with
  | object name properties => cases other
  | _ => rfl

/-- Unknown shapes make no difference to a merge, unless there is nothing to merge at all. -/
theorem merge_filter_known {shapes : List Shape} (single : ∀ s ∈ shapes, s.isUnion = false) :
    merge (shapes.filter (!·.isUnknown)) = merge shapes := by
  have single' : ∀ s ∈ shapes.filter (!·.isUnknown), s.isUnion = false :=
    fun s member => single s (List.mem_filter.1 member).1
  have known : knownLeaves (shapes.filter (!·.isUnknown)) = knownLeaves shapes := by
    rw [knownLeaves, knownLeaves, flatMap_leaves_of_single single, flatMap_leaves_of_single single',
      List.filter_filter]
    simp
  rw [merge_eq_ofKnown fun s member => .single (single' s member),
    merge_eq_ofKnown fun s member => .single (single s member), known]

theorem preferKnown_of_known {shapes : List Shape} (known : ∀ s ∈ shapes, s.isUnknown = false) :
    preferKnown shapes = shapes := by
  have all : shapes.filter (!·.isUnknown) = shapes :=
    List.filter_eq_self.2 fun s member => by rw [known s member]; rfl
  rw [preferKnown, all, ite_self]

/-- An object that comes after other known shapes is the last variant of their merge. -/
theorem merge_concat_object {shapes : List Shape} (some : shapes ≠ [])
    (plain : ∀ s ∈ shapes, s.isUnion = false ∧ s.isUnknown = false ∧ s.isObject = false) {s : Shape}
    (object : s.isObject) : merge (shapes ++ [s]) = .union (firstOfEach shapes ++ [s]) := by
  have single : ∀ t ∈ shapes ++ [s], t.isUnion = false ∧ t.isUnknown = false := by
    intro t member
    rcases List.mem_append.1 member with before | last
    · exact ⟨(plain t before).1, (plain t before).2.1⟩
    · rw [List.mem_singleton.1 last]
      cases s <;> cases object
      exact ⟨rfl, rfl⟩
  have known : preferKnown (shapes ++ [s]) = shapes ++ [s] :=
    preferKnown_of_known fun t member => (single t member).2
  have new : (distinct shapes).any (same · s) = false := by
    rw [any_distinct, List.any_eq_false]
    intro t member equal
    have nodes := childPairs?_isSome_of_same equal
    have other := (plain t member).2.2
    cases s <;> cases object
    cases t <;> first | cases nodes | cases other
  rw [merge_eq_choices (by simp), choices_of_single fun t member => (single t member).1, known,
    distinct_concat, new, ← distinct_eq_firstOfEach]
  obtain ⟨first, rest, kept⟩ := List.exists_cons_of_ne_nil (distinct_ne_nil some)
  rw [kept]
  cases rest <;> rfl

end Shape

/-! ## One object for several -/

namespace Record

theorem eraseDups_of_nodup {keys : List Text} (once : keys.Nodup) : keys.eraseDups = keys := by
  induction keys with
  | nil => rfl
  | cons key rest ih =>
    obtain ⟨fresh, once⟩ := List.nodup_cons.1 once
    have others : rest.filter (fun other => !other == key) = rest := by
      refine List.filter_eq_self.2 fun other member => ?_
      have apart : other ≠ key := fun same => fresh (same ▸ member)
      rw [beq_false_of_ne apart]
      rfl
    rw [List.eraseDups_cons, others, ih once]

theorem mergedProperty_single {r : Record} (once : r.keys.Nodup) {p : Property Shape}
    (member : p ∈ r.properties) (single : p.shape.isUnion = false) (fresh : p.optional = false) :
    mergedProperty [r] p.key = p := by
  have alone : seen [r] p.key = [p] := by
    rw [seen, List.filterMap_cons, find?_of_mem once member]
    rfl
  have kept : p.shape.splitNull = (p.shape, false) :=
    Shape.splitNull_of_noNull fun variants union => by
      rw [union] at single
      cases single
  obtain ⟨key, shape, optional, nullable⟩ := p
  cases fresh
  rw [mergedProperty_eq, alone, List.map_singleton, Shape.merge_singleton single, kept]
  simp

/-- A single object is merged like several, key by key, as long as nothing has been merged into it. -/
theorem merge_eq {records : List Record} (once : ∀ r ∈ records, r.keys.Nodup)
    (fresh : ∀ r ∈ records, ∀ p ∈ r.properties, p.shape.isUnion = false ∧ p.optional = false)
    (name : Text) :
    merge records name = ⟨name, (records.flatMap keys).eraseDups.map (mergedProperty records)⟩ := by
  match records with
  | [] => rfl
  | [r] =>
    have nodup := once r (List.mem_singleton_self r)
    have properties : r.keys.map (mergedProperty [r]) = r.properties := by
      rw [keys, List.map_map]
      refine (List.map_congr_left fun p member => ?_).trans (List.map_id r.properties)
      obtain ⟨single, required⟩ := fresh r (List.mem_singleton_self r) p member
      exact mergedProperty_single nodup member single required
    rw [merge_single, List.flatMap_singleton, eraseDups_of_nodup nodup, properties]
  | first :: second :: rest => rfl

end Record

namespace Json.Value

def members? : Value → Option (List Member)
  | .object members => some members
  | _ => none

def isNull : Value → Bool
  | .null => true
  | _ => false

theorem isNull_iff {v : Value} : v.isNull ↔ v = .null := by
  cases v <;> simp [isNull]

end Json.Value

namespace Inference

/-! ## What is found in an array -/

def objects (elements : List Value) : List (List Member) := elements.filterMap Value.members?

def memberShapes (o : Options) (path : Path) (i : Nat) :
    List Value → Progress → List (List (Member × Shape))
  | [], _ => []
  | v :: rest, p =>
    let later := memberShapes o path (i + 1) rest (inferAt o (path ++ [.index i]) v p).2
    match v.members? with
    | none => later
    | some members =>
      members.zip (inferMembers o (path ++ [.index i]) members (p.count members.length)).1 :: later

def otherShapes (o : Options) (path : Path) (elements : List Value) (p : Progress) : List Shape :=
  ((elements.zip (inferElements o path 0 elements p).1).filter (·.1.members?.isNone)).map (·.2)

/-- What the objects that have a key hold under it. -/
def under (found : List (List (Member × Shape))) (key : Text) : List (Member × Shape) :=
  found.filterMap (·.find? (·.1.1 = key))

def shapesUnder (found : List (List (Member × Shape))) (key : Text) : List Shape :=
  ((under found key).filter (!·.1.2.isNull)).map (·.2)

/-- What is known about a key of the merged object. -/
structure KeyRule (objects : List (List Member)) (found : List (List (Member × Shape)))
    (q : Property Shape) : Prop where
  optional : q.optional ↔ ∃ members ∈ objects, q.key ∉ members.map (·.1)
  nullable : q.nullable ↔ ∃ members ∈ objects, (q.key, .null) ∈ members
  nothing : (∀ members ∈ objects, ∀ v, (q.key, v) ∈ members → v = .null) → q.shape = .unknown
  something : (∃ members ∈ objects, ∃ v, (q.key, v) ∈ members ∧ v ≠ .null) →
    q.shape = Shape.merge (shapesUnder found q.key)

/-- The element of an array that holds objects, and what is known about the object they are merged into. -/
structure ElementRule (o : Options) (path : Path) (elements : List Value) (p : Progress)
    (element : Shape) (merged : Record) : Prop where
  alone : (∀ v ∈ elements, v.members?.isSome) → element = merged.toShape
  mixed : (∃ v ∈ elements, v.members? = none) →
    element = .union (Shape.firstOfEach (otherShapes o path elements p) ++ [merged.toShape])
  keys : merged.keys = ((objects elements).flatMap (·.map (·.1))).eraseDups
  each : ∀ q ∈ merged.properties, KeyRule (objects elements) (memberShapes o path 0 elements p) q

/-! ## The run through an array -/

theorem isObject_outline (dates : Bool) (v : Value) : (outline dates v).isObject = v.members?.isSome := by
  cases v with
  | string t => rw [outline]; split <;> rfl
  | _ => rfl

/-- A shape that was found for a value, be it the value of a member. -/
def FoundFor (o : Options) (v : Value) (s : Shape) : Prop := s.unnamed = outline o.detectsDates v

namespace FoundFor

variable {o : Options} {v : Value} {s : Shape} (found : FoundFor o v s)

include found

theorem single : s.isUnion = false := by
  rw [← Shape.isUnion_unnamed, found, isUnion_outline]

theorem known : s.isUnknown = false := by
  rw [← Shape.isUnknown_unnamed, found, isUnknown_outline]

theorem isNull_eq : s.isNull = v.isNull := by
  rw [← Shape.isNull_unnamed, found, Bool.eq_iff_iff, outline_isNull, Value.isNull_iff]

theorem isObject_eq : s.isObject = v.members?.isSome := by
  rw [← Shape.isObject_unnamed, found, isObject_outline]

end FoundFor

theorem inferAt_found (o : Options) (path : Path) (v : Value) (p : Progress) :
    FoundFor o v (inferAt o path v p).1 :=
  inferAt_unnamed o v path p

section

variable (o : Options) (path : Path)

theorem inferElements_found (i : Nat) (elements : List Value) (p : Progress) :
    List.Forall₂ (FoundFor o) elements (inferElements o path i elements p).1 := by
  induction elements generalizing i p with
  | nil => exact .nil
  | cons v rest ih =>
    rw [inferElements]
    exact .cons (inferAt_found o _ v p) (ih _ _)

theorem inferMembers_found (members : List Member) (p : Progress) :
    List.Forall₂ (fun m => FoundFor o m.2) members (inferMembers o path members p).1 := by
  induction members generalizing p with
  | nil => exact .nil
  | cons m rest ih =>
    obtain ⟨key, v⟩ := m
    rw [inferMembers]
    exact .cons (inferAt_found o _ v p) (ih _)

theorem map_fst_memberShapes (i : Nat) (elements : List Value) (p : Progress) :
    (memberShapes o path i elements p).map (·.map (·.1)) = objects elements := by
  induction elements generalizing i p with
  | nil => rfl
  | cons v rest ih =>
    rw [memberShapes, objects, List.filterMap_cons]
    cases v.members? with
    | none => exact ih _ _
    | some members =>
      have lengths := (inferMembers_found o (path ++ [.index i]) members
        (p.count members.length)).length_eq
      rw [List.map_cons, ih, List.map_fst_zip (Nat.le_of_eq lengths)]
      rfl

theorem memberShapes_found (i : Nat) (elements : List Value) (p : Progress) :
    ∀ members ∈ memberShapes o path i elements p, ∀ m ∈ members, FoundFor o m.1.2 m.2 := by
  induction elements generalizing i p with
  | nil => exact nofun
  | cons v rest ih =>
    rw [memberShapes]
    cases v.members? with
    | none => exact ih _ _
    | some members =>
      refine List.forall_mem_cons.2 ⟨fun m member => ?_, ih _ _⟩
      exact List.forall₂_zip (inferMembers_found o _ members _) member

theorem record?_closeObject (members : List (Text × Shape)) (p : Progress) :
    ∃ name, (closeObject o path members p).1.record? =
      some ⟨name, members.map fun m => propertyOf m.1 m.2⟩ := by
  rw [closeObject]
  split <;> exact ⟨_, rfl⟩

theorem properties_inferElements (i : Nat) (elements : List Value) (p : Progress) :
    ((inferElements o path i elements p).1.filterMap Shape.record?).map (·.properties) =
      (memberShapes o path i elements p).map (·.map fun m => propertyOf m.1.1 m.2) := by
  induction elements generalizing i p with
  | nil => rfl
  | cons v rest ih =>
    rw [inferElements, memberShapes, List.filterMap_cons]
    cases v with
    | object members =>
      obtain ⟨name, object⟩ := record?_closeObject o (path ++ [.index i])
        ((members.map (·.1)).zip
          (inferMembers o (path ++ [.index i]) members (p.count members.length)).1)
        (inferMembers o (path ++ [.index i]) members (p.count members.length)).2
      rw [inferAt, object]
      simp only [Value.members?, List.map_cons, ih, List.zip_map_left, List.map_map]
      rfl
    | _ =>
      rw [Shape.record?_of_not_object (inferAt_found o _ _ p).isObject_eq]
      exact ih _ _

variable {o}

/-- Whether an element is an object can be asked of the value or of the shape. -/
theorem filter_zip_found {elements : List Value} {shapes : List Shape}
    (each : List.Forall₂ (FoundFor o) elements shapes) :
    ((elements.zip shapes).filter (·.1.members?.isNone)).map (·.2) = shapes.filter (!·.isObject) := by
  induction each with
  | nil => rfl
  | @cons v s elements shapes here later ih =>
    rw [List.zip_cons_cons, List.filter_cons, List.filter_cons, here.isObject_eq, ← ih]
    cases v.members? <;> rfl

theorem filter_not_object_eq_nil {elements : List Value} {shapes : List Shape}
    (each : List.Forall₂ (FoundFor o) elements shapes) :
    shapes.filter (!·.isObject) = [] ↔ ∀ v ∈ elements, v.members?.isSome := by
  induction each with
  | nil => exact ⟨nofun, fun _ => rfl⟩
  | @cons v s elements shapes here later ih =>
    rw [List.filter_cons, here.isObject_eq, List.forall_mem_cons, ← ih]
    cases v.members? <;> simp

variable (o)

theorem otherShapes_eq (elements : List Value) (p : Progress) :
    otherShapes o path elements p = (inferElements o path 0 elements p).1.filter (!·.isObject) :=
  filter_zip_found (inferElements_found o path 0 elements p)

end

/-! ## What is found under a key -/

/-- Objects with the keys and the shapes of members in which every key is listed once. -/
structure Recorded (o : Options) (found : List (List (Member × Shape))) (records : List Record) :
    Prop where
  properties : records.map (·.properties) = found.map (·.map fun m => propertyOf m.1.1 m.2)
  once : ∀ members ∈ found, (members.map (·.1.1)).Nodup
  each : ∀ members ∈ found, ∀ m ∈ members, FoundFor o m.1.2 m.2

theorem propertyOf_shape (key : Text) (s : Shape) :
    (propertyOf key s).shape = if s.isNull then .unknown else s := by
  rw [propertyOf]
  split <;> rfl

theorem propertyOf_nullable (key : Text) (s : Shape) : (propertyOf key s).nullable = s.isNull := by
  rw [propertyOf]
  cases s.isNull <;> rfl

theorem propertyOf_optional (key : Text) (s : Shape) : (propertyOf key s).optional = false := by
  rw [propertyOf]
  split <;> rfl

theorem find?_propertyOf (members : List (Member × Shape)) (key : Text) :
    find? (members.map fun m => propertyOf m.1.1 m.2) key =
      (members.find? (·.1.1 = key)).map fun m => propertyOf m.1.1 m.2 := by
  simp only [find?, List.find?_map, Function.comp_def, propertyOf_key]

theorem mem_under {found : List (List (Member × Shape))} {key : Text} {m : Member × Shape}
    (member : m ∈ under found key) : m.1.1 = key ∧ ∃ members ∈ found, m ∈ members := by
  obtain ⟨members, among, first⟩ := List.mem_filterMap.1 member
  have key := List.find?_some first
  exact ⟨of_decide_eq_true key, members, among, List.mem_of_find?_eq_some first⟩

theorem length_under_lt {found : List (List (Member × Shape))} {key : Text} :
    (under found key).length < found.length ↔
      ∃ members ∈ found.map (·.map (·.1)), key ∉ members.map (·.1) := by
  have lacking (members : List (Member × Shape)) :
      members.find? (·.1.1 = key) = none ↔ key ∉ (members.map (·.1)).map (·.1) := by
    simp only [List.find?_eq_none, decide_eq_true_eq, List.map_map, List.mem_map,
      Function.comp_apply, not_exists, not_and]
  rw [under, List.length_filterMap_lt_length_iff_exists]
  simp only [lacking, exists_prop, List.mem_map, exists_exists_and_eq_and]

namespace Recorded

variable {o : Options} {found : List (List (Member × Shape))} {records : List Record}
  (recorded : Recorded o found records)

include recorded

theorem seen_eq (key : Text) :
    Record.seen records key = (under found key).map fun m => propertyOf m.1.1 m.2 := by
  have properties := congrArg (List.filterMap (find? · key)) recorded.properties
  rw [List.filterMap_map, List.filterMap_map] at properties
  rw [Record.seen, under, List.map_filterMap]
  refine properties.trans (List.filterMap_congr fun members _ => ?_)
  exact find?_propertyOf members key

theorem mem_under_of_mem {members : List (Member × Shape)} (among : members ∈ found)
    {m : Member × Shape} (member : m ∈ members) : m ∈ under found m.1.1 := by
  have some : (members.find? (·.1.1 = m.1.1)).isSome :=
    List.find?_isSome.2 ⟨m, member, decide_eq_true rfl⟩
  obtain ⟨n, first⟩ := Option.isSome_iff_exists.1 some
  have key := List.find?_some first
  have same : n = m := List.inj_on_of_nodup_map (recorded.once members among)
    (List.mem_of_find?_eq_some first) member (of_decide_eq_true key)
  exact List.mem_filterMap.2 ⟨members, among, same ▸ first⟩

theorem found_of_mem_under {key : Text} {m : Member × Shape} (member : m ∈ under found key) :
    FoundFor o m.1.2 m.2 := by
  obtain ⟨_, members, among, inside⟩ := mem_under member
  exact recorded.each members among m inside

/-- Under a key there are the shapes of the values, and unknown ones for the nulls. -/
theorem seen_shapes (key : Text) :
    (Record.seen records key).map (·.shape) =
      (under found key).map fun m => if m.1.2.isNull then .unknown else m.2 := by
  rw [recorded.seen_eq, List.map_map]
  refine List.map_congr_left fun m member => ?_
  rw [Function.comp_apply, propertyOf_shape, (recorded.found_of_mem_under member).isNull_eq]

theorem seen_nullable (key : Text) :
    (Record.seen records key).map (·.nullable) = (under found key).map (·.1.2.isNull) := by
  rw [recorded.seen_eq, List.map_map]
  refine List.map_congr_left fun m member => ?_
  rw [Function.comp_apply, propertyOf_nullable, (recorded.found_of_mem_under member).isNull_eq]

theorem filter_seen_shapes (key : Text) :
    ((Record.seen records key).map (·.shape)).filter (!·.isUnknown) = shapesUnder found key := by
  rw [recorded.seen_shapes, List.filter_map, shapesUnder]
  have known : (under found key).filter
      ((!·.isUnknown) ∘ fun m : Member × Shape => if m.1.2.isNull then .unknown else m.2) =
        (under found key).filter (!·.1.2.isNull) := by
    refine List.filter_congr fun m member => ?_
    rw [Function.comp_apply]
    cases m.1.2.isNull with
    | true => rfl
    | false => exact congrArg (!·) (recorded.found_of_mem_under member).known
  rw [known]
  refine List.map_congr_left fun m member => ?_
  have other := (List.mem_filter.1 member).2
  rw [if_neg]
  simpa using other

theorem seen_single (key : Text) :
    ∀ s ∈ (Record.seen records key).map (·.shape), s.isUnion = false ∧ s.isNull = false := by
  rw [recorded.seen_shapes]
  refine List.forall_mem_map.2 fun m member => ?_
  have here := recorded.found_of_mem_under member
  cases null : m.1.2.isNull with
  | true => exact ⟨rfl, rfl⟩
  | false => exact ⟨here.single, here.isNull_eq.trans null⟩

theorem mergedProperty_eq (key : Text) :
    Record.mergedProperty records key =
      { key
        shape := Shape.merge (shapesUnder found key)
        optional := decide ((under found key).length < found.length)
        nullable := (under found key).any (·.1.2.isNull) } := by
  have single := recorded.seen_single key
  have lengths : records.length = found.length := by
    simpa using congrArg List.length recorded.properties
  have nullable : (Record.seen records key).any (·.nullable) =
      (under found key).any (·.1.2.isNull) := by
    have flags := congrArg (List.any · id) (recorded.seen_nullable key)
    rwa [List.any_map, List.any_map] at flags
  rw [Record.mergedProperty_eq,
    Shape.splitNull_merge (fun s member => (single s member).1) fun s member => (single s member).2,
    nullable, ← recorded.filter_seen_shapes, Shape.merge_filter_known fun s member => (single s member).1,
    lengths, recorded.seen_eq, List.length_map, Bool.false_or]

theorem exists_mem_under {objects : List (List Member)} (members : found.map (·.map (·.1)) = objects)
    (key : Text) (v : Value) :
    (∃ m ∈ under found key, m.1.2 = v) ↔ ∃ members ∈ objects, (key, v) ∈ members := by
  subst members
  constructor
  · rintro ⟨m, member, rfl⟩
    obtain ⟨rfl, members, among, inside⟩ := mem_under member
    exact ⟨_, List.mem_map_of_mem among, List.mem_map_of_mem inside⟩
  · rintro ⟨_, listed, inside⟩
    obtain ⟨members, among, rfl⟩ := List.mem_map.1 listed
    obtain ⟨⟨m, s⟩, member, rfl⟩ := List.mem_map.1 inside
    exact ⟨_, recorded.mem_under_of_mem among member, rfl⟩

/-- The keys are those of the objects, in the order they were first seen. -/
theorem flatMap_keys : records.flatMap Record.keys = (found.map (·.map (·.1))).flatMap (·.map (·.1)) := by
  have keys := congrArg (List.flatMap (·.map (·.key))) recorded.properties
  simp only [List.flatMap_map, List.map_map, Function.comp_def, propertyOf_key] at keys ⊢
  exact keys

theorem merge_eq (name : Text) :
    Record.merge records name =
      ⟨name, (records.flatMap Record.keys).eraseDups.map (Record.mergedProperty records)⟩ := by
  have each : ∀ r ∈ records, ∃ members ∈ found,
      r.properties = members.map fun m => propertyOf m.1.1 m.2 := by
    intro r member
    have listed := List.mem_map_of_mem (f := fun t : Record => t.properties) member
    rw [recorded.properties] at listed
    obtain ⟨members, among, same⟩ := List.mem_map.1 listed
    exact ⟨members, among, same.symm⟩
  apply Record.merge_eq
  · intro r member
    obtain ⟨members, among, same⟩ := each r member
    have once := recorded.once members among
    simpa only [Record.keys, same, List.map_map, Function.comp_def, propertyOf_key] using once
  · intro r member q inside
    obtain ⟨members, among, same⟩ := each r member
    rw [same] at inside
    obtain ⟨m, inner, rfl⟩ := List.mem_map.1 inside
    refine ⟨?_, propertyOf_optional m.1.1 m.2⟩
    rw [propertyOf_shape]
    split
    · rfl
    · exact (recorded.each members among m inner).single

theorem keyRule {objects : List (List Member)} (members : found.map (·.map (·.1)) = objects)
    (key : Text) : KeyRule objects found (Record.mergedProperty records key) := by
  have held (v : Value) := recorded.exists_mem_under members key v
  rw [recorded.mergedProperty_eq]
  refine ⟨?optional, ?nullable, ?nothing, fun _ => rfl⟩
  case optional =>
    subst members
    exact decide_eq_true_iff.trans length_under_lt
  case nullable =>
    rw [← held, List.any_eq_true]
    exact exists_congr fun m => and_congr_right fun _ => Value.isNull_iff
  case nothing =>
    intro all
    have none : shapesUnder found key = [] := by
      rw [shapesUnder, List.map_eq_nil_iff, List.filter_eq_nil_iff]
      intro m member
      obtain ⟨object, among, inside⟩ := (held _).1 ⟨m, member, rfl⟩
      rw [all object among _ inside]
      exact Bool.false_ne_true
    dsimp only
    rw [none]
    rfl

end Recorded

/-! ## The element -/

section

variable (o : Options) (path : Path) {elements : List Value} (p : Progress)

theorem recorded_inferElements (distinct : (Value.array elements).keysDistinct) :
    Recorded o (memberShapes o path 0 elements p)
      ((inferElements o path 0 elements p).1.filterMap Shape.record?) where
  properties := properties_inferElements o path 0 elements p
  once := by
    intro members among
    have listed : members.map (·.1) ∈ objects elements := by
      rw [← map_fst_memberShapes o path 0 elements p]
      exact List.mem_map_of_mem among
    obtain ⟨v, member, object⟩ := List.mem_filterMap.1 listed
    have inner := Value.keysDistinct_array.1 distinct v member
    cases v with
    | object members' =>
      cases object
      have once := (Value.keysDistinct_object.1 inner).1
      rwa [List.map_map] at once
    | _ => cases object
  each := memberShapes_found o path 0 elements p

theorem closeArray_objects {shapes : List Shape} (object : ∃ s ∈ shapes, s.isObject) :
    ∃ name, (closeArray path shapes p).1 = .array (
      let item := (Record.merge (shapes.filterMap Shape.record?) name).toShape
      let others := shapes.filter (!·.isObject)
      if others.isEmpty then item else Shape.merge (others ++ [item])) := by
  obtain ⟨s, member, object⟩ := object
  have records : shapes.filterMap Shape.record? ≠ [] := by
    intro none
    rw [filterMap_record?_eq_nil.1 none s member] at object
    cases object
  rw [closeArray]
  dsimp only
  have filled : ¬ shapes.isEmpty := by simpa using List.ne_nil_of_mem member
  have objects : ¬ (shapes.filterMap Shape.record?).isEmpty := by simpa using records
  rw [if_neg filled, if_neg objects]
  split <;> exact ⟨_, rfl⟩

/-- An array that holds objects, at any place and whatever names have been given out. -/
theorem inferAt_objects
    (distinct : (Value.array elements).keysDistinct) (object : ∃ v ∈ elements, v.members?.isSome) :
    ∃ element merged, (inferAt o path (.array elements) p).1 = .array element ∧
      ElementRule o path elements p element merged := by
  have found := inferElements_found o path 0 elements p
  have recorded := recorded_inferElements o path p distinct
  have members := map_fst_memberShapes o path 0 elements p
  have shown : ∃ s ∈ (inferElements o path 0 elements p).1, s.isObject := by
    obtain ⟨v, member, object⟩ := object
    obtain ⟨s, among, here⟩ := (Covering.of_forall₂ found).left v member
    exact ⟨s, among, here.isObject_eq.trans object⟩
  obtain ⟨name, closed⟩ := closeArray_objects path (inferElements o path 0 elements p).2 shown
  have emptied := filter_not_object_eq_nil found
  have merged := recorded.merge_eq name
  rw [← otherShapes_eq] at closed emptied
  refine ⟨_, Record.merge ((inferElements o path 0 elements p).1.filterMap Shape.record?) name, closed,
    ?alone, ?mixed, ?keys, ?each⟩
  case alone =>
    intro all
    rw [emptied.2 all]
    rfl
  case mixed =>
    rintro ⟨v, member, other⟩
    have some : otherShapes o path elements p ≠ [] := by
      intro none
      have object := emptied.1 none v member
      rw [other] at object
      cases object
    dsimp only
    rw [if_neg (by simpa using some)]
    refine Shape.merge_concat_object some (fun s listed => ?_) rfl
    rw [otherShapes_eq] at listed
    obtain ⟨among, other⟩ := List.mem_filter.1 listed
    obtain ⟨v, _, here⟩ := exists_partner found among
    exact ⟨here.single, here.known, by simpa using other⟩
  case keys =>
    rw [merged, Record.keys, Record.map_key_mergedProperty, recorded.flatMap_keys, members]
  case each =>
    intro q member
    rw [merged] at member
    obtain ⟨key, _, rfl⟩ := List.mem_map.1 member
    exact recorded.keyRule members key

end

def spareRows : List Value :=
  [.object [("id", .number (.integer 1)), ("note", .null)], .number (.integer 2), .object [("id", .string "x")]]

theorem inferAt_objects_spareRows :
    (Value.array spareRows).keysDistinct ∧ (∃ v ∈ spareRows, v.members?.isSome) ∧
      ∃ element merged,
        (inferAt {} [.key "rows"] (.array spareRows) { names := Allocator.empty "Root" }).1 =
            .array element ∧
          ElementRule {} [.key "rows"] spareRows { names := Allocator.empty "Root" } element merged := by
  have distinct : (Value.array spareRows).keysDistinct := by cbv
  have object : ∃ v ∈ spareRows, v.members?.isSome := ⟨_, List.mem_cons_self, rfl⟩
  exact ⟨distinct, object, inferAt_objects {} _ _ distinct object⟩

example (path : Path) (p : Progress) : (inferAt {} path (.array spareRows) p).1.unnamed =
    .array (.union [.number, .object [] [
      ⟨"id", .union [.number, .string], false, false⟩, ⟨"note", .unknown, true, true⟩]]) := by
  rw [inferAt_unnamed]
  cbv

end Inference

end JsonShape
