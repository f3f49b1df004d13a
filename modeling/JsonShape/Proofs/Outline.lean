import JsonShape.Proofs.Congruence
import JsonShape.Proofs.Walk

/-! Shapes without names.

Names are given out in the order of the walk, but nothing else about a shape depends on them. So up to
names inference is a function of the value alone, the outline, and every step of it leaves names out of
account.
-/

set_option autoImplicit false

namespace JsonShape

namespace Shape

mutual

def unnamed : Shape → Shape
  | .array element => .array (unnamed element)
  | .union variants => .union (unnamedAll variants)
  | .object _ properties => .object [] (unnamedProperties properties)
  | s => s

def unnamedAll : List Shape → List Shape
  | [] => []
  | s :: rest => unnamed s :: unnamedAll rest

def unnamedProperties : List (Property Shape) → List (Property Shape)
  | [] => []
  | p :: rest => { p with shape := unnamed p.shape } :: unnamedProperties rest

end

end Shape

def Property.unnamed (p : Property Shape) : Property Shape := { p with shape := p.shape.unnamed }

@[simp] theorem Property.unnamed_shape (p : Property Shape) : p.unnamed.shape = p.shape.unnamed := rfl

@[simp] theorem Property.unnamed_key (p : Property Shape) : p.unnamed.key = p.key := rfl

@[simp] theorem Property.unnamed_optional (p : Property Shape) : p.unnamed.optional = p.optional := rfl

@[simp] theorem Property.unnamed_nullable (p : Property Shape) : p.unnamed.nullable = p.nullable := rfl

def Record.unnamed (r : Record) : Record := ⟨[], r.properties.map Property.unnamed⟩

namespace Shape

theorem unnamedAll_eq (shapes : List Shape) : unnamedAll shapes = shapes.map unnamed := by
  induction shapes with
  | nil => rfl
  | cons s rest ih => rw [unnamedAll, ih, List.map_cons]

theorem unnamedProperties_eq (properties : List (Property Shape)) :
    unnamedProperties properties = properties.map Property.unnamed := by
  induction properties with
  | nil => rfl
  | cons p rest ih => rw [unnamedProperties, ih, List.map_cons, Property.unnamed]

@[simp] theorem unnamed_array (element : Shape) :
    unnamed (.array element) = .array element.unnamed := rfl

@[simp] theorem unnamed_union (variants : List Shape) :
    unnamed (.union variants) = .union (variants.map unnamed) := by
  rw [unnamed, unnamedAll_eq]

@[simp] theorem unnamed_object (name : Text) (properties : List (Property Shape)) :
    unnamed (.object name properties) = .object [] (properties.map Property.unnamed) := by
  rw [unnamed, unnamedProperties_eq]

@[simp] theorem isUnion_unnamed (s : Shape) : s.unnamed.isUnion = s.isUnion := by
  cases s <;> rfl

@[simp] theorem isNull_unnamed (s : Shape) : s.unnamed.isNull = s.isNull := by
  cases s <;> rfl

@[simp] theorem isUnknown_unnamed (s : Shape) : s.unnamed.isUnknown = s.isUnknown := by
  cases s <;> rfl

@[simp] theorem isObject_unnamed (s : Shape) : s.unnamed.isObject = s.isObject := by
  cases s <;> rfl

theorem record?_unnamed (s : Shape) : s.unnamed.record? = s.record?.map Record.unnamed := by
  cases s with
  | object name properties => rw [unnamed_object]; rfl
  | _ => rfl

@[simp] theorem unnamed_toShape (r : Record) : r.toShape.unnamed = r.unnamed.toShape := by
  rw [Record.toShape, unnamed_object]
  rfl

end Shape

theorem find?_unnamed (properties : List (Property Shape)) (key : Text) :
    find? (properties.map Property.unnamed) key = (find? properties key).map Property.unnamed := by
  rw [find?, List.find?_map]
  rfl

theorem sameKeys_unnamed (ps qs : List (Property Shape)) :
    sameKeys (ps.map Property.unnamed) (qs.map Property.unnamed) = sameKeys ps qs := by
  simp only [sameKeys, List.all_map, find?_unnamed, Function.comp_def, Property.unnamed_key,
    Option.isSome_map]

namespace Shape

/-! ## Equality and merging -/

theorem childPairs?_unnamed (a b : Shape) :
    childPairs? a.unnamed b.unnamed =
      (childPairs? a b).map (List.map (Prod.map unnamed unnamed)) := by
  cases a <;> cases b <;> try rfl
  case union.union as bs =>
    simp only [unnamed_union, childPairs?, List.length_map, List.zip_map]
    split <;> rfl
  case object.object n ps m qs =>
    simp only [unnamed_object, childPairs?, sameKeys_unnamed]
    split
    · simp [List.filterMap_map, List.map_filterMap, find?_unnamed, Function.comp_def]
    · rfl

theorem sameAll_unnamed (pairs : List (Shape × Shape)) :
    sameAll (pairs.map (Prod.map unnamed unnamed)) = sameAll pairs := by
  fun_induction sameAll pairs with
  | case1 => rw [List.map_nil, sameAll]
  | case2 a b rest children found ih =>
    have mapped := childPairs?_unnamed a b
    rw [found] at mapped
    rw [List.map_cons, Prod.map_apply, sameAll]
    split
    · next others again =>
      cases mapped.symm.trans again
      rw [← List.map_append, ih]
    · next missing => cases mapped.symm.trans missing
  | case3 a b rest missing =>
    have mapped := childPairs?_unnamed a b
    rw [missing] at mapped
    rw [List.map_cons, Prod.map_apply, sameAll]
    split
    · next others found => cases mapped.symm.trans found
    · rfl

@[simp] theorem same_unnamed (a b : Shape) : same a.unnamed b.unnamed = same a b :=
  sameAll_unnamed [(a, b)]

theorem leaves_unnamed (s : Shape) : s.unnamed.leaves = s.leaves.map unnamed := by
  induction s with
  | union variants ih =>
    rw [unnamed_union, leaves_union, leaves_union, List.map_flatMap, List.flatMap_map]
    exact List.flatMap_congr ih
  | object name properties =>
    rw [unnamed_object, leaves_of_not_union rfl, leaves_of_not_union rfl, List.map_singleton,
      unnamed_object]
  | _ => rfl

theorem forall₂_unnamed {shapes others : List Shape} :
    List.Forall₂ (fun a b => a.unnamed = b) shapes others ↔ shapes.map unnamed = others := by
  rw [← List.forall₂_map_left_iff, List.forall₂_eq_eq_eq]

theorem respected_unnamed : Respected fun a b => a.unnamed = b where
  isUnknown := by
    rintro a _ rfl
    exact (isUnknown_unnamed a).symm
  same := by
    rintro a _ c _ rfl rfl
    exact (same_unnamed a c).symm
  leaves := by
    rintro a _ rfl
    exact forall₂_unnamed.2 (leaves_unnamed a).symm
  union each := by rw [unnamed_union, forall₂_unnamed.1 each]
  unknown := rfl

theorem ofVariants_unnamed (variants : List Shape) :
    ofVariants (variants.map unnamed) = (ofVariants variants).unnamed :=
  (respected_unnamed.ofVariants (forall₂_unnamed.2 rfl)).symm

theorem merge_unnamed (shapes : List Shape) : merge (shapes.map unnamed) = (merge shapes).unnamed :=
  (respected_unnamed.merge (forall₂_unnamed.2 rfl)).symm

theorem splitNull_unnamed (s : Shape) :
    s.unnamed.splitNull = (s.splitNull.1.unnamed, s.splitNull.2) := by
  cases s with
  | union variants =>
    have filtered : (variants.map unnamed).filter (!·.isNull) =
        (variants.filter (!·.isNull)).map unnamed := by
      simp only [List.filter_map, Function.comp_def, isNull_unnamed]
    simp only [unnamed_union, splitNull, filtered, List.length_map]
    split
    · simp
    · cases others : variants.filter (!·.isNull) with
      | nil => rfl
      | cons first rest => simp only [List.map_cons, ← ofVariants_unnamed]
  | object name properties => rw [unnamed_object]; simp [splitNull]
  | _ => rfl

end Shape

namespace Record

theorem seen_unnamed (records : List Record) (key : Text) :
    seen (records.map unnamed) key = (seen records key).map Property.unnamed := by
  simp only [seen, List.filterMap_map, List.map_filterMap, Function.comp_def, unnamed, find?_unnamed]

theorem mergedProperty_unnamed (records : List Record) (key : Text) :
    mergedProperty (records.map unnamed) key = (mergedProperty records key).unnamed := by
  have shapes : ((seen records key).map Property.unnamed).map (·.shape) =
      ((seen records key).map (·.shape)).map Shape.unnamed := by
    simp only [List.map_map, Function.comp_def, Property.unnamed_shape]
  simp only [mergedProperty_eq, seen_unnamed, shapes, Shape.merge_unnamed, Shape.splitNull_unnamed,
    List.length_map, List.any_map, Function.comp_def, Property.unnamed]

theorem keys_unnamed (r : Record) : r.unnamed.keys = r.keys := by
  simp only [keys, unnamed, List.map_map, Function.comp_def, Property.unnamed_key]

theorem merge_unnamed (records : List Record) (name : Text) :
    merge (records.map unnamed) [] = (merge records name).unnamed := by
  match records with
  | [] => rfl
  | [r] => rfl
  | first :: second :: rest =>
    have keysKept : ((first :: second :: rest).map unnamed).flatMap keys =
        (first :: second :: rest).flatMap keys := by
      simp only [List.flatMap_map, keys_unnamed]
    have properties : mergedProperty ((first :: second :: rest).map unnamed) =
        fun key => (mergedProperty (first :: second :: rest) key).unnamed :=
      funext (mergedProperty_unnamed (first :: second :: rest))
    rw [List.map_cons, List.map_cons, merge_several, ← List.map_cons, ← List.map_cons, keysKept,
      properties, merge_several]
    simp only [unnamed, List.map_map, Function.comp_def]

end Record

/-! ## The outline of a value -/

namespace Inference

open Json (Value Member)

/-- The shapes merged into the element of an array. All its objects make one shape, which comes last. -/
def elementShapes (shapes : List Shape) : List Shape :=
  shapes.filter (!·.isObject) ++
    match shapes.filterMap Shape.record? with
    | [] => []
    | records => [(Record.merge records []).toShape]

/-- Only the merged object among the shapes of an array's elements is an object. -/
theorem elementShapes_eq (shapes : List Shape) :
    ∃ last, elementShapes shapes = shapes.filter (!·.isObject) ++ last ∧
      (last = [] ∨ last = [(Record.merge (shapes.filterMap Shape.record?) []).toShape]) := by
  rw [elementShapes]
  split
  · exact ⟨[], rfl, .inl rfl⟩
  · exact ⟨_, rfl, .inr rfl⟩

theorem mem_elementShapes {shapes : List Shape} {s : Shape} (member : s ∈ elementShapes shapes) :
    s ∈ shapes ∧ s.isObject = false ∨ s = (Record.merge (shapes.filterMap Shape.record?) []).toShape := by
  obtain ⟨last, all, known⟩ := elementShapes_eq shapes
  rw [all, List.mem_append, List.mem_filter, Bool.not_eq_true'] at member
  refine member.imp_right fun inLast => ?_
  rcases known with rfl | rfl
  · cases inLast
  · exact List.mem_singleton.1 inLast

mutual

/-- The shape of a value without names. -/
def outline (dates : Bool) : Value → Shape
  | .null => .null
  | .bool _ => .boolean
  | .number _ => .number
  | .string s => if dates && s.isDate then .date else .string
  | .array elements => .array (Shape.merge (elementShapes (outlineElements dates elements)))
  | .object members => .object [] (outlineMembers dates members)

def outlineElements (dates : Bool) : List Value → List Shape
  | [] => []
  | v :: rest => outline dates v :: outlineElements dates rest

def outlineMembers (dates : Bool) : List (Text × Value) → List (Property Shape)
  | [] => []
  | (key, v) :: rest => propertyOf key (outline dates v) :: outlineMembers dates rest

end

theorem outlineElements_eq (dates : Bool) (elements : List Value) :
    outlineElements dates elements = elements.map (outline dates) := by
  induction elements with
  | nil => rfl
  | cons v rest ih => rw [outlineElements, ih, List.map_cons]

theorem outlineMembers_eq (dates : Bool) (members : List Member) :
    outlineMembers dates members = members.map fun m => propertyOf m.1 (outline dates m.2) := by
  induction members with
  | nil => rfl
  | cons m rest ih => rw [outlineMembers, ih, List.map_cons]

theorem outline_array (dates : Bool) (elements : List Value) :
    outline dates (.array elements) =
      .array (Shape.merge (elementShapes (elements.map (outline dates)))) := by
  rw [outline, outlineElements_eq]

theorem outline_object (dates : Bool) (members : List Member) :
    outline dates (.object members) =
      .object [] (members.map fun m => propertyOf m.1 (outline dates m.2)) := by
  rw [outline, outlineMembers_eq]

theorem isUnion_outline (dates : Bool) (v : Value) : (outline dates v).isUnion = false := by
  cases v with
  | string s => rw [outline]; split <;> rfl
  | _ => rfl

theorem isUnknown_outline (dates : Bool) (v : Value) : (outline dates v).isUnknown = false := by
  cases v with
  | string s => rw [outline]; split <;> rfl
  | _ => rfl

theorem propertyOf_key (key : Text) (s : Shape) : (propertyOf key s).key = key := by
  rw [propertyOf]
  split <;> rfl

theorem map_key_propertyOf (dates : Bool) (members : List Member) :
    (members.map fun m => propertyOf m.1 (outline dates m.2)).map (·.key) = members.map (·.1) := by
  rw [List.map_map]
  exact List.map_congr_left fun m _ => propertyOf_key m.1 (outline dates m.2)

theorem propertyOf_unnamed (key : Text) (s : Shape) :
    (propertyOf key s).unnamed = propertyOf key s.unnamed := by
  simp only [propertyOf, Shape.isNull_unnamed]
  split <;> rfl

theorem filterMap_record?_unnamed (shapes : List Shape) :
    (shapes.map Shape.unnamed).filterMap Shape.record? =
      (shapes.filterMap Shape.record?).map Record.unnamed := by
  simp only [List.filterMap_map, List.map_filterMap, Function.comp_def, Shape.record?_unnamed]

theorem filter_not_object_unnamed (shapes : List Shape) :
    (shapes.map Shape.unnamed).filter (!·.isObject) =
      (shapes.filter (!·.isObject)).map Shape.unnamed := by
  simp only [List.filter_map, Function.comp_def, Shape.isObject_unnamed]

theorem closeItems_unnamed (path : Path) (records : List Record) (p : Progress) :
    (closeItems path records p).1.unnamed = (Record.merge (records.map Record.unnamed) []).toShape := by
  rw [closeItems, Shape.unnamed_toShape, Record.merge_unnamed]

theorem closeObject_unnamed (o : Options) (path : Path) (members : List (Text × Shape)) (p : Progress) :
    (closeObject o path members p).1.unnamed =
      .object [] (members.map fun m => propertyOf m.1 m.2.unnamed) := by
  rw [closeObject]
  split <;> simp [Function.comp_def, propertyOf_unnamed]

theorem filterMap_record?_eq_nil {shapes : List Shape} :
    shapes.filterMap Shape.record? = [] ↔ ∀ s ∈ shapes, s.isObject = false := by
  rw [List.filterMap_eq_nil_iff]
  constructor
  · exact fun none s member => Shape.isObject_of_record? (none s member)
  · intro others s member
    cases s with
    | object name properties => cases others _ member
    | _ => rfl

/-- All four cases of an array are one merge: of nothing, of its one object, of its other elements, or
of these and the object. -/
theorem closeArray_unnamed (path : Path) (elements : List Shape) (p : Progress) :
    (closeArray path elements p).1.unnamed =
      .array (Shape.merge (elementShapes (elements.map Shape.unnamed))) := by
  rw [closeArray, elementShapes, filterMap_record?_unnamed, filter_not_object_unnamed]
  cases elements with
  | nil => rfl
  | cons first rest =>
    generalize recordsEq : (first :: rest).filterMap Shape.record? = records
    generalize othersEq : (first :: rest).filter (!·.isObject) = others
    rw [if_neg (by simp)]
    cases others with
    | nil =>
      cases records with
      | nil =>
        have noObject := filterMap_record?_eq_nil.1 recordsEq first List.mem_cons_self
        rw [List.filter_cons_of_pos (by rw [noObject]; rfl)] at othersEq
        cases othersEq
      | cons r records =>
        rw [if_pos List.isEmpty_nil, Shape.unnamed_array, closeItems_unnamed]
        exact congrArg Shape.array (Shape.merge_singleton rfl).symm
    | cons other others =>
      rw [if_neg (by simp)]
      cases records with
      | nil =>
        rw [if_pos List.isEmpty_nil, Shape.unnamed_array, ← Shape.merge_unnamed]
        simp
      | cons r records =>
        rw [if_neg (by simp), Shape.unnamed_array, ← Shape.merge_unnamed, List.map_append,
          List.map_singleton, closeItems_unnamed]
        rfl

theorem inferText_unnamed (o : Options) (path : Path) (s : Text) (p : Progress) :
    (inferText o path s p).1.unnamed = outline o.detectsDates (.string s) := by
  rw [inferText, outline]
  split <;> rfl

theorem inferElements_unnamed {o : Options} {elements : List Value}
    (known : ∀ v ∈ elements, ∀ path p, (inferAt o path v p).1.unnamed = outline o.detectsDates v)
    (path : Path) (i : Nat) (p : Progress) :
    (inferElements o path i elements p).1.map Shape.unnamed =
      elements.map (outline o.detectsDates) := by
  induction elements generalizing i p with
  | nil => rfl
  | cons v rest ih =>
    rw [inferElements, List.map_cons, List.map_cons, known v List.mem_cons_self,
      ih fun w member => known w (List.mem_cons_of_mem v member)]

theorem inferMembers_unnamed {o : Options} {members : List Member}
    (known : ∀ m ∈ members, ∀ path p, (inferAt o path m.2 p).1.unnamed = outline o.detectsDates m.2)
    (path : Path) (p : Progress) :
    ((members.map (·.1)).zip (inferMembers o path members p).1).map
        (fun m => propertyOf m.1 m.2.unnamed) =
      members.map fun m => propertyOf m.1 (outline o.detectsDates m.2) := by
  induction members generalizing p with
  | nil => rfl
  | cons m rest ih =>
    obtain ⟨key, v⟩ := m
    rw [inferMembers, List.map_cons, List.zip_cons_cons, List.map_cons, List.map_cons,
      known (key, v) List.mem_cons_self, ih fun w member => known w (List.mem_cons_of_mem _ member)]

theorem inferAt_unnamed (o : Options) (v : Value) (path : Path) (p : Progress) :
    (inferAt o path v p).1.unnamed = outline o.detectsDates v := by
  induction v generalizing path p with
  | string s => exact inferText_unnamed o path s p
  | array elements ih =>
    rw [inferAt, closeArray_unnamed, inferElements_unnamed ih, outline_array]
  | object members ih =>
    rw [inferAt, closeObject_unnamed, inferMembers_unnamed ih, outline_object]
  | _ => rfl

/-- Up to names, the inferred shape is the outline of the value. -/
theorem infer_unnamed (o : Options) (v : Value) :
    (infer o v).shape.unnamed = outline o.detectsDates v := by
  rw [infer_shape, inferAt_unnamed]

end Inference

end JsonShape
