import JsonShape.Document.Zod
import JsonShape.Proofs.DistinctNames

/-! The constants of a validating document.

A constant has the name of its type with the first letter lowered, so distinct types may share one. They do
not where lowering can be undone, which depends only on the root name and on the words that keys start
with.
-/

set_option autoImplicit false

namespace JsonShape

/-! ## Names whose first letter can be raised again -/

def CodePoint.outlastsLowering (c : CodePoint) : Bool :=
  match c.lower with
  | [small] => small.upper = [c]
  | _ => false

namespace Text

/-- Whether the first letter outlasts lowering, if there is one. -/
def outlastsLowering (t : Text) : Bool := t.head?.all CodePoint.outlastsLowering

theorem lower_of_outlasts {c : CodePoint} (outlasts : c.outlastsLowering) :
    ∃ small, c.lower = [small] ∧ small.upper = [c] := by
  rw [CodePoint.outlastsLowering] at outlasts
  split at outlasts
  · next small lowered => exact ⟨small, lowered, of_decide_eq_true outlasts⟩
  · cases outlasts

theorem lowerFirst_injOn {s t : Text} (first : s.outlastsLowering) (second : t.outlastsLowering)
    (same : s.lowerFirst = t.lowerFirst) : s = t := by
  cases s with
  | nil =>
    cases t with
    | nil => rfl
    | cons d rest =>
      obtain ⟨small, lowered, _⟩ := lower_of_outlasts second
      rw [lowerFirst, lowerFirst, lowered] at same
      cases same
  | cons c rest =>
    obtain ⟨small, lowered, raised⟩ := lower_of_outlasts first
    cases t with
    | nil =>
      rw [lowerFirst, lowerFirst, lowered] at same
      cases same
    | cons d rest' =>
      obtain ⟨small', lowered', raised'⟩ := lower_of_outlasts second
      rw [lowerFirst, lowerFirst, lowered, lowered'] at same
      cases same
      cases raised.symm.trans raised'
      rfl

theorem outlastsLowering_append {s : Text} (t : Text) (some : s ≠ []) :
    (s ++ t).outlastsLowering = s.outlastsLowering := by
  cases s with
  | nil => exact absurd rfl some
  | cons c rest => rfl

theorem outlastsLowering_flatMap {keys : List Text} {spell : Text → Text}
    (each : ∀ key ∈ keys, (spell key).outlastsLowering) : outlastsLowering (keys.flatMap spell) := by
  induction keys with
  | nil => rfl
  | cons key rest ih =>
    rw [List.flatMap_cons]
    by_cases empty : spell key = []
    · rw [empty]
      exact ih fun other member => each other (List.mem_cons_of_mem key member)
    · rw [outlastsLowering_append _ empty]
      exact each key List.mem_cons_self

theorem mem_ofNat {n : Nat} {c : CodePoint} (member : c ∈ ofNat n) :
    ∃ d < 10, c = CodePoint.ofNat (0x30 + d) := by
  rw [ofNat, ofString, Nat.toList_repr, List.mem_map] at member
  obtain ⟨figure, among, rfl⟩ := member
  have digit := Nat.isDigit_of_mem_toDigits (by decide) (by decide) among
  rw [Char.isDigit, Bool.and_eq_true, decide_eq_true_eq, decide_eq_true_eq] at digit
  have low : 0x30 ≤ figure.toNat := UInt32.le_iff_toNat_le.1 digit.1
  have high : figure.toNat ≤ 0x39 := UInt32.le_iff_toNat_le.1 digit.2
  refine ⟨figure.toNat - 0x30, by omega, ?_⟩
  apply CodePoint.ext_val
  rw [CodePoint.ofNat, dif_pos (by omega)]
  change figure.toNat = 0x30 + (figure.toNat - 0x30)
  omega

theorem digit_outlastsLowering : ∀ n < 10, (CodePoint.ofNat (0x30 + n)).outlastsLowering := by
  decide

theorem outlastsLowering_ofNat (n : Nat) : (ofNat n).outlastsLowering := by
  rw [outlastsLowering, Option.all_eq_true]
  intro c first
  obtain ⟨d, small, rfl⟩ := mem_ofNat (List.mem_of_mem_head? first)
  exact digit_outlastsLowering d small

end Text

/-! ## Names that an allocator produces -/

namespace Allocator

theorem numbered_outlastsLowering {base : Text} (outlasts : base.outlastsLowering) (count : Nat) :
    (numbered base count).outlastsLowering := by
  rw [numbered]
  split
  · exact outlasts
  -- a number starts the name only where there is nothing to number
  · by_cases empty : base = []
    · rw [empty]
      exact Text.outlastsLowering_ofNat count
    · rwa [Text.outlastsLowering_append _ empty]

theorem guarded_outlastsLowering {base : Text} (outlasts : base.outlastsLowering) :
    (guarded base).outlastsLowering := by
  have underscore : (CodePoint.ofChar '_').outlastsLowering := by decide
  rw [guarded]
  split
  · exact underscore
  · exact outlasts

variable {a : Allocator} {keys : List Text}

theorem allocate_outlastsLowering (root : a.rootName.outlastsLowering)
    (each : ∀ key ∈ keys, key.pascal.outlastsLowering) : (a.allocate keys).1.outlastsLowering := by
  apply numbered_outlastsLowering
  apply guarded_outlastsLowering
  split
  · exact root
  · exact Text.outlastsLowering_flatMap each

/-- An allocator for a root name that has produced good names only. -/
structure Produces (good : Text → Prop) (rootName : Text) (a : Allocator) : Prop where
  root : a.rootName = rootName
  produced : ∀ name ∈ a.produced, good name

variable {good : Text → Prop} {rootName name : Text}

theorem Produces.allocate (before : a.Produces good rootName) (named : good (a.allocate keys).1) :
    (a.allocate keys).2.Produces good rootName where
  root := before.root
  produced other member := by
    rcases a.mem_produced_allocate.1 member with rfl | earlier
    · exact named
    · exact before.produced other earlier

theorem Produces.reserve (before : a.Produces good rootName) (named : good name) :
    (a.reserve name).Produces good rootName where
  root := before.root
  produced other member := by
    rcases a.mem_produced_reserve.1 member with rfl | earlier
    · exact named
    · exact before.produced other earlier

theorem produces_empty (good : Text → Prop) (rootName : Text) :
    (empty rootName).Produces good rootName where
  root := rfl
  produced _ member := absurd member Std.TreeSet.not_mem_emptyc

end Allocator

open Json (Value Member)

/-! ## Keys -/

namespace Json.Value

mutual

def allKeys : Value → List Text
  | .array elements => allKeysElements elements
  | .object members => allKeysMembers members
  | _ => []

def allKeysElements : List Value → List Text
  | [] => []
  | v :: rest => allKeys v ++ allKeysElements rest

def allKeysMembers : List (Text × Value) → List Text
  | [] => []
  | (key, v) :: rest => key :: (allKeys v ++ allKeysMembers rest)

end

theorem forall_allKeys_array {good : Text → Prop} {elements : List Value} :
    (∀ key ∈ (array elements).allKeys, good key) ↔
      ∀ v ∈ elements, ∀ key ∈ v.allKeys, good key := by
  rw [allKeys]
  induction elements with
  | nil => simp [allKeysElements]
  | cons v rest ih => rw [allKeysElements, List.forall_mem_append, ih, List.forall_mem_cons]

theorem forall_allKeys_object {good : Text → Prop} {members : List Member} :
    (∀ key ∈ (object members).allKeys, good key) ↔
      ∀ m ∈ members, good m.1 ∧ ∀ key ∈ m.2.allKeys, good key := by
  rw [allKeys]
  induction members with
  | nil => simp [allKeysMembers]
  | cons m rest ih =>
    rw [allKeysMembers, List.forall_mem_cons, List.forall_mem_append, ih, List.forall_mem_cons, and_assoc]

end Json.Value

namespace Inference

/-! ## What allocation preserves

A property of the allocator that every allocation from good keys preserves is preserved by inference of a
value with good keys.
-/

section

variable {P : Allocator → Prop} {good : Text → Prop} (item : good itemKey)
  (step : ∀ a keys, (∀ key ∈ keys, good key) → P a → P (a.allocate keys).2)

include step in
theorem closeObject_preserves {o : Options} {path : Path} (spelled : ∀ key ∈ path.keys, good key)
    (members : List (Text × Shape)) {p : Progress} (before : P p.names) :
    P (closeObject o path members p).2.names := by
  rw [closeObject]
  split
  · exact before
  · exact step p.names path.keys spelled before

include item step in
theorem closeArray_preserves {path : Path} (spelled : ∀ key ∈ path.keys, good key)
    (shapes : List Shape) {p : Progress} (before : P p.names) :
    P (closeArray path shapes p).2.names := by
  have named : ∀ key ∈ path.keys ++ [itemKey], good key := by
    rw [List.forall_mem_append, List.forall_mem_singleton]
    exact ⟨spelled, item⟩
  have items := step p.names _ named before
  unfold closeArray
  dsimp only
  split
  · exact before
  · split
    · exact items
    · split
      · split <;> exact before
      · exact items

def Preserves (P : Allocator → Prop) (good : Text → Prop) (o : Options) (v : Value) : Prop :=
  ∀ path p, (∀ key ∈ Path.keys path, good key) → P p.names → P (inferAt o path v p).2.names

theorem inferElements_preserves {o : Options} {elements : List Value}
    (each : ∀ v ∈ elements, Preserves P good o v) {path : Path}
    (spelled : ∀ key ∈ path.keys, good key) (i : Nat) {p : Progress} (before : P p.names) :
    P (inferElements o path i elements p).2.names := by
  induction elements generalizing i p with
  | nil => exact before
  | cons v rest ih =>
    have below : ∀ key ∈ Path.keys (path ++ [.index i]), good key := by
      simpa [Path.keys, Segment.key?] using spelled
    have here := each v List.mem_cons_self _ p below before
    exact ih (fun w member => each w (List.mem_cons_of_mem v member)) (i + 1) here

theorem inferMembers_preserves {o : Options} {members : List Member}
    (each : ∀ m ∈ members, good m.1 ∧ Preserves P good o m.2) {path : Path}
    (spelled : ∀ key ∈ path.keys, good key) {p : Progress} (before : P p.names) :
    P (inferMembers o path members p).2.names := by
  induction members generalizing p with
  | nil => exact before
  | cons m rest ih =>
    obtain ⟨key, v⟩ := m
    have first := each (key, v) List.mem_cons_self
    have below : ∀ other ∈ Path.keys (path ++ [.key key]), good other := by
      rw [Path.keys, List.filterMap_append, List.forall_mem_append]
      exact ⟨spelled, by simpa [Segment.key?] using first.1⟩
    have here := first.2 _ p below before
    exact ih (fun m member => each m (List.mem_cons_of_mem _ member)) here

include item step in
theorem inferAt_preserves (o : Options) (v : Value) (known : ∀ key ∈ v.allKeys, good key) :
    Preserves P good o v := by
  induction v with
  | array elements ih =>
    rw [Value.forall_allKeys_array] at known
    intro path p spelled before
    rw [inferAt]
    exact closeArray_preserves item step spelled _
      (inferElements_preserves (fun v member => ih v member (known v member)) spelled 0 before)
  | object members ih =>
    rw [Value.forall_allKeys_object] at known
    intro path p spelled before
    have each : ∀ m ∈ members, good m.1 ∧ Preserves P good o m.2 := fun m member =>
      ⟨(known m member).1, ih m member (known m member).2⟩
    rw [inferAt]
    exact closeObject_preserves step spelled _
      (inferMembers_preserves each spelled (p := p.count members.length) before)
  | string s =>
    intro path p _ before
    rw [inferAt, inferText]
    split <;> exact before
  | _ => exact fun _ _ _ before => before

end

/-! ## Names in an inferred shape -/

theorem name_produced (o : Options) (v : Value) :
    ∀ name ∈ (infer o v).shape.names,
      name = o.rootName ∨ name ∈ (inferAt o [] v (start o v)).2.names.produced := by
  intro name member
  cases v with
  | object members =>
    have draws := (inferMembers_draws members (fun m _ => inferAt_draws o m.2) []
      ((start o (.object members)).count members.length)).subperm
        (names_members (members.map (·.1)) _).subperm
    rw [shape_object_root, Shape.names_object, List.mem_cons] at member
    exact member.imp_right (draws.taken name)
  | array elements =>
    have draws := closeArray_draws [] _ _
      (inferElements_draws elements (fun v _ => inferAt_draws o v) [] 0 (start o (.array elements)))
    rw [infer_shape, inferAt] at member
    exact .inr (draws.taken name member)
  | string s =>
    rw [infer_shape, inferAt, inferText] at member
    split at member <;> cases member
  | _ =>
    rw [infer_shape] at member
    cases member

theorem start_produces {good : Text → Prop} {o : Options} (root : good o.rootName) (v : Value) :
    (start o v).names.Produces good o.rootName := by
  have empty := Allocator.produces_empty good o.rootName
  rw [start]
  split
  · exact empty.reserve root
  · exact empty

/-- What holds of the root name, and of every name that is allocated for keys of a kind, holds of all names
in the shape of a value with keys of that kind. -/
theorem forall_names {good kind : Text → Prop} {o : Options} {v : Value} (root : good o.rootName)
    (item : kind itemKey) (known : ∀ key ∈ v.allKeys, kind key)
    (allocated : ∀ (a : Allocator) (keys : List Text), a.rootName = o.rootName →
      (∀ key ∈ keys, kind key) → good (a.allocate keys).1) :
    ∀ name ∈ (infer o v).shape.names, good name := by
  have preserved := inferAt_preserves (P := Allocator.Produces good o.rootName) item
    (fun a keys each before => before.allocate (allocated a keys before.root each)) o v known []
    (start o v) (fun key none => by cases none) (start_produces root v)
  intro name member
  rcases name_produced o v name member with rfl | produced
  · exact root
  · exact preserved.produced name produced

theorem name_outlastsLowering {o : Options} {v : Value} (root : o.rootName.outlastsLowering)
    (keys : ∀ key ∈ v.allKeys, key.pascal.outlastsLowering) :
    ∀ name ∈ (infer o v).shape.names, name.outlastsLowering := by
  have item : itemKey.pascal.outlastsLowering := by decide
  have allocated (a : Allocator) (spelled : List Text) (same : a.rootName = o.rootName)
      (each : ∀ key ∈ spelled, key.pascal.outlastsLowering) :
      (a.allocate spelled).1.outlastsLowering := by
    apply Allocator.allocate_outlastsLowering _ each
    rw [same]
    exact root
  exact forall_names root item keys allocated

end Inference

namespace Zod

/-! ## Constants in a document -/

def schemaNames (style : Style) (s : Shape) : List Text :=
  (TypeScript.declaredNames style s).map Text.schemaName

inductive Declares (constant : Text) : Text → Prop where
  | schema (body : Text) : Declares constant ("export const " ++ constant ++ " = " ++ body)

theorem block_declares (style : Style) (r : Record) : Declares r.name.schemaName (block style r) := by
  have opening : Text.ofString " = z.object(\x7b\n" = Text.ofString " = " ++ "z.object(\x7b\n" := rfl
  have declares : Declares r.name.schemaName _ :=
    .schema ("z.object(\x7b\n" ++ (r.properties.flatMap (field style) ++
      if style.strict then ("\x7d).strict();" : Text) else "\x7d);"))
  simpa [block, opening] using declares

theorem document_declares (style : Style) (s : Shape) :
    ∃ blocks, document style s =
        Text.ofBlocks (("import \x7b z \x7d from \"zod\";" : Text) :: blocks ++ [rootType style]) ∧
      List.Forall₂ Declares (schemaNames style s) blocks := by
  refine ⟨s.declarationOrder.map (block style) ++ rootSchema style s, by rw [document]; rfl, ?_⟩
  rw [schemaNames, TypeScript.declaredNames, List.map_append, List.map_map]
  apply List.rel_append
  · rw [List.forall₂_map_left_iff, List.forall₂_map_right_iff, List.forall₂_same]
    exact fun r _ => block_declares style r
  · unfold rootSchema
    split
    · exact .nil
    · have declares : Declares style.rootName.schemaName _ := .schema (schemaOf style s ++ ";")
      refine .cons ?_ .nil
      simpa using declares

end Zod

namespace Inference

/-- The constants are distinct exactly if no two declared names become one by lowering. -/
theorem schemaNames_nodup_iff {o : Options} {v : Value} {style : Style}
    (sameRoot : style.rootName = o.rootName) :
    (Zod.schemaNames style (infer o v).shape).Nodup ↔
      ∀ s ∈ TypeScript.declaredNames style (infer o v).shape,
        ∀ t ∈ TypeScript.declaredNames style (infer o v).shape, s.lowerFirst = t.lowerFirst → s = t := by
  rw [Zod.schemaNames, List.nodup_map_iff_inj_on (declaredNames_nodup sameRoot)]
  simp only [Text.schemaName, List.append_cancel_right_eq]

/-- Where the root name and the words that keys start with can be raised again after lowering, a validating
document declares every constant once. -/
theorem schemaNames_nodup {o : Options} {v : Value} {style : Style}
    (sameRoot : style.rootName = o.rootName) (root : o.rootName.outlastsLowering)
    (keys : ∀ key ∈ v.allKeys, key.pascal.outlastsLowering) :
    ∃ blocks,
      Zod.document style (infer o v).shape =
        Text.ofBlocks (("import \x7b z \x7d from \"zod\";" : Text) :: blocks ++ [Zod.rootType style]) ∧
      List.Forall₂ Zod.Declares (Zod.schemaNames style (infer o v).shape) blocks ∧
      (Zod.schemaNames style (infer o v).shape).Nodup := by
  obtain ⟨blocks, document, declares⟩ := Zod.document_declares style (infer o v).shape
  refine ⟨blocks, document, declares, (schemaNames_nodup_iff sameRoot).2 ?_⟩
  -- a declared name is that of an object in the shape, or the root name
  have outlasts : ∀ name ∈ TypeScript.declaredNames style (infer o v).shape, name.outlastsLowering := by
    intro name member
    rw [TypeScript.declaredNames, Shape.declarationOrder, Shape.records_eq, List.mem_append,
      List.mem_map] at member
    rcases member with ⟨r, found, rfl⟩ | last
    · exact name_outlastsLowering root keys r.name (List.mem_map_of_mem (List.mem_reverse.1 found))
    · split at last
      · cases last
      · rw [List.mem_singleton.1 last, sameRoot]
        exact root
  exact fun s first t second => Text.lowerFirst_injOn (outlasts s first) (outlasts t second)

def nestedRoot : Value := .object [("root", .object [("a", .number (.integer 1))])]

theorem schemaNames_nodup_nestedRoot :
    Text.outlastsLowering "Root" ∧ (∀ key ∈ nestedRoot.allKeys, key.pascal.outlastsLowering) ∧
      (Zod.schemaNames {} (infer {} nestedRoot).shape).Nodup := by
  have root : Text.outlastsLowering "Root" := by decide
  have keys : ∀ key ∈ nestedRoot.allKeys, key.pascal.outlastsLowering := by decide
  obtain ⟨_, _, _, nodup⟩ := @schemaNames_nodup {} nestedRoot {} rfl root keys
  exact ⟨root, keys, nodup⟩

def kelvinSign : Value := .object [("k", .object []), ("\u212A", .object [])]

set_option maxRecDepth 4000 in
/-- Constants collide for a root name in lower case, and for letters that share a lower case. -/
theorem schemaNames_collide :
    ¬ (Zod.schemaNames { rootName := "root" } (infer { rootName := "root" } nestedRoot).shape).Nodup ∧
      ¬ (Zod.schemaNames {} (infer {} kelvinSign).shape).Nodup := by
  constructor
  · rw [Zod.schemaNames, TypeScript.declaredNames, Shape.declarationOrder, Shape.records_eq, infer_shape]
    decide
  · rw [Zod.schemaNames, TypeScript.declaredNames, Shape.declarationOrder, Shape.records_eq, infer_shape]
    decide

end Inference

end JsonShape
