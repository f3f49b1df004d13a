import JsonShape.Document.TypeScript
import JsonShape.Proofs.Discovery
import JsonShape.Proofs.Merging
import JsonShape.Proofs.Naming
import JsonShape.Proofs.Walk
import Mathlib.Data.List.Flatten
import Mathlib.Data.List.Perm.Basic
import Mathlib.Data.List.Perm.Subperm

/-! No name is given twice.

Merging moves objects around and drops some, and no name occurs more often in a merge than in all that was
merged. The names left in a shape are therefore among those drawn for it, each at most once, and every one
of them was free when it was drawn.
-/

set_option autoImplicit false

namespace JsonShape

namespace Shape

/-! ## Names in a merge -/

theorem names_array (element : Shape) : (array element).names = element.names := by
  rw [names_eq, inside]
  simp [record?]

theorem names_union (variants : List Shape) : (union variants).names = variants.flatMap names := by
  rw [names_eq, inside]
  simp [record?]

theorem names_object (name : Text) (properties : List (Property Shape)) :
    (object name properties).names = name :: properties.flatMap (·.shape.names) := by
  rw [names_eq, inside, List.flatMap_map]
  rfl

theorem names_ofVariants (variants : List Shape) :
    (ofVariants variants).names = variants.flatMap names := by
  unfold ofVariants
  split
  · simp
  · exact names_union _

theorem names_leaves (s : Shape) : s.leaves.flatMap names = s.names := by
  induction s with
  | union variants ih =>
    rw [leaves_union, List.flatMap_assoc, names_union]
    exact List.flatMap_congr ih
  | _ => exact List.append_nil _

theorem names_merge (shapes : List Shape) : (merge shapes).names.Sublist (shapes.flatMap names) := by
  cases shapes with
  | nil => exact List.nil_sublist _
  | cons s rest =>
    have leaves : ((s :: rest).flatMap leaves).flatMap names = (s :: rest).flatMap names := by
      rw [List.flatMap_assoc]
      exact List.flatMap_congr fun t _ => names_leaves t
    rw [merge_cons, names_ofVariants, ← leaves]
    exact (choices_sublist (s :: rest)).flatMap names

theorem names_splitNull (s : Shape) : s.splitNull.1.names.Sublist s.names := by
  unfold splitNull
  split
  · next variants =>
    have others : ((variants.filter (!·.isNull)).flatMap names).Sublist (union variants).names := by
      rw [names_union]
      exact List.filter_sublist.flatMap names
    dsimp only
    split
    · exact .refl _
    · split
      · exact List.nil_sublist _
      · rw [names_ofVariants]
        exact others
  · exact .refl _

end Shape

open Shape (names)

/-! ## Names in merged objects -/

namespace Record

theorem seen_cons (r : Record) (rest : List Record) (key : Text) :
    seen (r :: rest) key = (find? r.properties key).toList ++ seen rest key := by
  rw [seen, seen, List.filterMap_cons]
  cases find? r.properties key <;> rfl

theorem subperm_flatMap {fewer more : List (Property Shape)} (kept : fewer.Subperm more) :
    (fewer.flatMap (·.shape.names)).Subperm (more.flatMap (·.shape.names)) := by
  obtain ⟨among, reordered, sublist⟩ := kept
  exact ⟨among.flatMap _, reordered.flatMap_right _, sublist.flatMap _⟩

theorem found_subperm {keys : List Text} (distinct : keys.Nodup) (properties : List (Property Shape)) :
    (keys.flatMap fun key => (find? properties key).toList).Subperm properties := by
  rw [← List.filterMap_eq_flatMap_toList]
  apply List.subperm_of_subset
  · apply List.Nodup.filterMap _ distinct
    intro key other p found found'
    rw [← find?_key found, ← find?_key found']
  · intro p member
    obtain ⟨key, _, found⟩ := List.mem_filterMap.1 member
    exact mem_of_find? found

/-- Looked up key by key, every property of the objects is seen at most once. -/
theorem seen_subperm {keys : List Text} (distinct : keys.Nodup) (records : List Record) :
    (keys.flatMap (seen records)).Subperm (records.flatMap (·.properties)) := by
  induction records with
  | nil =>
    have none : keys.flatMap (seen []) = [] := List.flatMap_eq_nil_iff.2 fun _ _ => rfl
    rw [none]
    exact List.nil_subperm
  | cons r rest ih =>
    -- for every key the first object comes before the others; taken together it comes first as well
    have split := List.flatMap_append_perm keys (fun key => (find? r.properties key).toList) (seen rest)
    simp only [← seen_cons] at split
    exact split.symm.subperm.trans ((found_subperm distinct r.properties).append ih)

theorem names_mergedProperty (records : List Record) (key : Text) :
    (mergedProperty records key).shape.names.Sublist ((seen records key).flatMap (·.shape.names)) := by
  have merged := Shape.names_merge ((seen records key).map (·.shape))
  rw [List.flatMap_map] at merged
  exact (Shape.names_splitNull _).trans merged

/-- The merge has one new name, and below it no name more often than the objects that are merged. -/
theorem names_merge (records : List Record) (name : Text) :
    (merge records name).toShape.names.Subperm
      (name :: records.flatMap fun r => r.properties.flatMap (·.shape.names)) := by
  match records with
  | [] => exact List.Subperm.refl _
  | [r] =>
    rw [merge_single, toShape, Shape.names_object, List.flatMap_singleton]
  | first :: second :: rest =>
    rw [merge_several, toShape, Shape.names_object, List.flatMap_map, List.subperm_cons]
    generalize (first :: second :: rest) = records
    have distinct := nodup_eraseDups (records.flatMap keys)
    have each : ((records.flatMap keys).eraseDups.flatMap
          fun key => (mergedProperty records key).shape.names).Sublist
        (((records.flatMap keys).eraseDups.flatMap (seen records)).flatMap (·.shape.names)) := by
      rw [List.flatMap_assoc]
      exact List.Sublist.flatMap_right _ fun key _ => names_mergedProperty records key
    rw [← List.flatMap_assoc]
    exact each.subperm.trans (subperm_flatMap (seen_subperm distinct records))

end Record

open Json (Value Member)

namespace Inference

open Allocator (Draws draws_nil draws_allocate)

/-! ## Names drawn by inference -/

/-- The objects among some shapes, and the other shapes, have the names of all the shapes. -/
theorem names_parts (shapes : List Shape) :
    ((shapes.filter (!·.isObject)).flatMap names ++
      (shapes.filterMap Shape.record?).flatMap (·.toShape.names)).Perm (shapes.flatMap names) := by
  induction shapes with
  | nil => exact .refl _
  | cons s rest ih =>
    cases s with
    | object name properties =>
      rw [List.flatMap_cons]
      exact List.perm_append_comm_assoc _ _ _ |>.trans (ih.append_left _)
    | _ =>
      rw [List.flatMap_cons]
      exact (List.append_assoc _ _ _ ▸ ih.append_left _)

theorem names_closeItems (path : Path) (records : List Record) (p : Progress) :
    (closeItems path records p).1.names.Subperm
      (records.flatMap (·.toShape.names) ++ [(p.names.allocate (path.keys ++ [itemKey])).1]) := by
  have merged := Record.names_merge records (p.names.allocate (path.keys ++ [itemKey])).1
  have each : (records.flatMap fun r => r.properties.flatMap (·.shape.names)).Sublist
      (records.flatMap (·.toShape.names)) := by
    apply List.Sublist.flatMap_right
    intro r _
    rw [Record.toShape, Shape.names_object]
    exact List.sublist_cons_self _ _
  refine merged.trans ?_
  refine .trans ?_ (List.perm_append_singleton _ _).symm.subperm
  exact (each.cons_cons _).subperm

variable {before : Allocator}

/-- The name of the merged object is drawn after those of the elements. -/
theorem closeArray_draws (path : Path) (shapes : List Shape) (p : Progress)
    (draws : Draws before p.names (shapes.flatMap names)) :
    Draws before (closeArray path shapes p).2.names (closeArray path shapes p).1.names := by
  have parts := names_parts shapes
  have others : ((shapes.filter (!·.isObject)).flatMap names).Subperm (shapes.flatMap names) :=
    (List.sublist_append_left _ _).subperm.trans parts.subperm
  have items (p : Progress) := names_closeItems path (shapes.filterMap Shape.record?) p
  have extended := draws.append (draws_allocate p.names (path.keys ++ [itemKey]))
  unfold closeArray
  dsimp only
  split
  · exact draws.subperm List.nil_subperm
  · split
    -- there are objects only
    · apply extended.subperm
      rw [Shape.names_array]
      refine (items p).trans (List.Subperm.append ?_ (.refl _))
      exact (List.sublist_append_right _ _).subperm.trans parts.subperm
    · split
      -- there is no object, and no name is drawn for the array
      · have kept := draws.subperm ((Shape.names_merge _).subperm.trans others)
        rw [← Shape.names_array] at kept
        split
        · exact kept
        · exact kept
      · apply extended.subperm
        rw [Shape.names_array]
        refine (Shape.names_merge _).subperm.trans ?_
        rw [List.flatMap_append, List.flatMap_singleton]
        refine ((List.Subperm.refl _).append (items _)).trans ?_
        rw [← List.append_assoc]
        exact parts.subperm.append (.refl _)

theorem names_propertyOf (key : Text) (s : Shape) : (propertyOf key s).shape.names = s.names := by
  rw [propertyOf]
  split
  · next isNull =>
    cases s with
    | null => rfl
    | _ => cases isNull
  · rfl

theorem names_members (keys : List Text) (shapes : List Shape) :
    (((keys.zip shapes).map fun (key, s) => propertyOf key s).flatMap (·.shape.names)).Sublist
      (shapes.flatMap names) := by
  induction keys generalizing shapes with
  | nil => exact List.nil_sublist _
  | cons key rest ih =>
    cases shapes with
    | nil => exact List.nil_sublist _
    | cons s shapes =>
      rw [List.zip_cons_cons, List.map_cons, List.flatMap_cons, List.flatMap_cons, names_propertyOf]
      exact (ih shapes).append_left _

theorem closeObject_draws {o : Options} {path : Path} (below : path ≠ []) (keys : List Text)
    (shapes : List Shape) (p : Progress) (draws : Draws before p.names (shapes.flatMap names)) :
    Draws before (closeObject o path (keys.zip shapes) p).2.names
      (closeObject o path (keys.zip shapes) p).1.names := by
  have nested : path.isEmpty = false := by
    cases path with
    | nil => exact absurd rfl below
    | cons _ _ => rfl
  unfold closeObject
  rw [nested]
  apply (draws.append (draws_allocate p.names path.keys)).subperm
  refine .trans ?_ (List.perm_append_singleton _ _).symm.subperm
  rw [Progress.allocate, if_neg Bool.false_ne_true]
  dsimp only
  rw [Shape.names_object]
  exact ((names_members keys shapes).cons_cons _).subperm

/-- At every place below the root, inference of the value draws the names in its shape. -/
def DrawsNames (o : Options) (v : Value) : Prop :=
  ∀ path p, path ≠ [] → Draws p.names (inferAt o path v p).2.names (inferAt o path v p).1.names

theorem inferElements_draws {o : Options} (elements : List Value)
    (each : ∀ v ∈ elements, DrawsNames o v) (path : Path) (i : Nat) (p : Progress) :
    Draws p.names (inferElements o path i elements p).2.names
      ((inferElements o path i elements p).1.flatMap names) := by
  induction elements generalizing i p with
  | nil => exact draws_nil p.names
  | cons v rest ih =>
    have here := each v List.mem_cons_self (path ++ [.index i]) p (by simp)
    have later := ih (fun w member => each w (List.mem_cons_of_mem v member)) (i + 1)
      (inferAt o (path ++ [.index i]) v p).2
    rw [inferElements]
    exact here.append later

theorem inferMembers_draws {o : Options} (members : List Member)
    (each : ∀ m ∈ members, DrawsNames o m.2) (path : Path) (p : Progress) :
    Draws p.names (inferMembers o path members p).2.names
      ((inferMembers o path members p).1.flatMap names) := by
  induction members generalizing p with
  | nil => exact draws_nil p.names
  | cons m rest ih =>
    obtain ⟨key, v⟩ := m
    have here := each (key, v) List.mem_cons_self (path ++ [.key key]) p (by simp)
    have later := ih (fun w member => each w (List.mem_cons_of_mem (key, v) member))
      (inferAt o (path ++ [.key key]) v p).2
    rw [inferMembers]
    exact here.append later

theorem inferAt_draws (o : Options) (v : Value) : DrawsNames o v := by
  induction v with
  | array elements ih =>
    intro path p _
    rw [inferAt]
    exact closeArray_draws path _ _ (inferElements_draws elements ih path 0 p)
  | object members ih =>
    intro path p below
    rw [inferAt]
    exact closeObject_draws below _ _ _ (inferMembers_draws members ih path (p.count members.length))
  | string text =>
    intro path p _
    rw [inferAt, inferText]
    split <;> exact draws_nil _
  | _ => exact fun path p _ => draws_nil p.names

/-! ## The whole sample -/

theorem mem_produced_start {o : Options} {v : Value} (container : v.isContainer) :
    o.rootName ∈ (start o v).names.produced := by
  rw [start, if_pos container]
  exact ((Allocator.empty o.rootName).mem_produced_reserve).2 (.inl rfl)

/-- An array draws all its names, so none of them is the one reserved for the root. -/
theorem names_array_root (o : Options) (elements : List Value) :
    (infer o (.array elements)).shape.names.Nodup ∧
      o.rootName ∉ (infer o (.array elements)).shape.names := by
  have draws := closeArray_draws [] _ _
    (inferElements_draws elements (fun v _ => inferAt_draws o v) [] 0 (start o (.array elements)))
  rw [infer_shape, inferAt]
  refine ⟨draws.nodup, fun member => ?_⟩
  exact draws.free _ member (mem_produced_start rfl)

theorem shape_object_root (o : Options) (members : List Member) :
    (infer o (.object members)).shape = .object o.rootName
      (((members.map (·.1)).zip (inferMembers o [] members
        ((start o (.object members)).count members.length)).1).map fun (key, s) => propertyOf key s) := by
  rw [infer_shape, inferAt]
  rfl

/-- An object has the name of the root, and draws the names of the objects below it. -/
theorem names_object_root (o : Options) (members : List Member) :
    (infer o (.object members)).shape.names.Nodup := by
  have draws := inferMembers_draws members (fun m _ => inferAt_draws o m.2) []
    ((start o (.object members)).count members.length)
  have below := draws.subperm (names_members (members.map (·.1)) _).subperm
  rw [shape_object_root, Shape.names_object, List.nodup_cons]
  refine ⟨fun member => ?_, below.nodup⟩
  exact below.free _ member (mem_produced_start rfl)

/-- The names are distinct, and the root name is among them only for an object at the root. -/
theorem names_distinct (o : Options) (v : Value) :
    (infer o v).shape.names.Nodup ∧
      ((infer o v).shape.isObject = false → o.rootName ∉ (infer o v).shape.names) := by
  cases v with
  | object members =>
    refine ⟨names_object_root o members, fun single => ?_⟩
    rw [shape_object_root] at single
    cases single
  | array elements =>
    obtain ⟨nodup, free⟩ := names_array_root o elements
    exact ⟨nodup, fun _ => free⟩
  | string text =>
    rw [infer_shape, inferAt, inferText]
    split <;> exact ⟨List.nodup_nil, fun _ => List.not_mem_nil⟩
  | _ =>
    rw [infer_shape, inferAt]
    exact ⟨List.nodup_nil, fun _ => List.not_mem_nil⟩

end Inference

namespace TypeScript

/-! ## Names in a document -/

def declaredNames (style : Style) (s : Shape) : List Text :=
  s.declarationOrder.map (·.name) ++ if s.isObject then [] else [style.rootName]

inductive Declares (name : Text) : Text → Prop where
  | type (comment body : Text) :
      Declares name (comment ++ ("export type " ++ name ++ " = " ++ body))
  | interface (comment body : Text) :
      Declares name (comment ++ ("export interface " ++ name ++ " \x7b\n" ++ body))

theorem block_declares (style : Style) (r : Record) : Declares r.name (block style r) := by
  unfold block
  by_cases interfaces : style.interfaces
  · rw [if_pos interfaces, if_pos interfaces]
    have declares : Declares r.name _ :=
      .interface (mappings style r) (r.properties.flatMap (field style) ++ "\x7d")
    simpa using declares
  · rw [if_neg interfaces, if_neg interfaces]
    have opening : Text.ofString " = \x7b\n" = Text.ofString " = " ++ "\x7b\n" := rfl
    have declares : Declares r.name _ :=
      .type (mappings style r) ("\x7b\n" ++ (r.properties.flatMap (field style) ++ "\x7d;"))
    simpa [opening] using declares

theorem document_declares (style : Style) (s : Shape) :
    ∃ blocks, document style s = Text.ofBlocks blocks ∧
      List.Forall₂ Declares (declaredNames style s) blocks := by
  refine ⟨s.declarationOrder.map (block style) ++ rootAlias style s, rfl, ?_⟩
  apply List.rel_append
  · rw [List.forall₂_map_left_iff, List.forall₂_map_right_iff, List.forall₂_same]
    exact fun r _ => block_declares style r
  · unfold rootAlias
    split
    · exact .nil
    · have declares : Declares style.rootName _ := .type [] (typeOf s ++ ";")
      refine .cons ?_ .nil
      simpa using declares

end TypeScript

namespace Inference

/-- Every object of an inferred shape can be told by its name. -/
structure NamedOnce (o : Options) (v : Value) : Prop where
  distinct : ((infer o v).shape.records.map (·.name)).Nodup
  /-- An object in the shape is found, and found once. -/
  found : ∀ address (r : Record), (infer o v).shape.nodeAt? address = some r.toShape →
    ∃! i : Nat, (infer o v).shape.records[i]? = some r
  addressed : ∀ (i : Nat) (r : Record), (infer o v).shape.records[i]? = some r →
    ∃! address, (infer o v).shape.nodeAt? address = some r.toShape
  /-- No object in an array has the name of the root. -/
  unreserved : ∀ elements, v = .array elements → o.rootName ∉ (infer o v).shape.records.map (·.name)
  /-- A document of declarations declares every name once. -/
  declared : ∀ style, style.rootName = o.rootName → ∃ blocks,
    TypeScript.document style (infer o v).shape = Text.ofBlocks blocks ∧
      List.Forall₂ TypeScript.Declares (TypeScript.declaredNames style (infer o v).shape) blocks ∧
      (TypeScript.declaredNames style (infer o v).shape).Nodup

theorem declaredNames_nodup {o : Options} {v : Value} {style : Style}
    (sameRoot : style.rootName = o.rootName) :
    (TypeScript.declaredNames style (infer o v).shape).Nodup := by
  obtain ⟨nodup, free⟩ := names_distinct o v
  rw [TypeScript.declaredNames, Shape.declarationOrder, Shape.records_eq, List.map_reverse]
  change ((infer o v).shape.names.reverse ++ _).Nodup
  split
  · rw [List.append_nil, List.nodup_reverse]
    exact nodup
  · next single =>
    rw [← List.reverse_cons, List.nodup_reverse, List.nodup_cons, sameRoot]
    exact ⟨free (Bool.eq_false_iff.2 single), nodup⟩

/-- Whatever the keys and the root name are, inference gives every object a name of its own. -/
theorem infer_namedOnce (o : Options) (v : Value) : NamedOnce o v := by
  have nodup := (names_distinct o v).1
  have once := Shape.found_once nodup
  refine ⟨?_, once.1, once.2, ?_, ?_⟩
  · rw [Shape.records_eq]
    exact nodup
  · rintro elements rfl
    rw [Shape.records_eq]
    exact (names_array_root o elements).2
  · intro style sameRoot
    obtain ⟨blocks, document, declares⟩ := TypeScript.document_declares style (infer o v).shape
    exact ⟨blocks, document, declares, declaredNames_nodup sameRoot⟩

end Inference

end JsonShape
