import JsonShape.Proofs.Outline
import Mathlib.Algebra.Ring.Nat

/-! What inference tells besides the shape.

Names play no part in the diagnostics and in the number of members, so both are functions of the value.
Inference adds exactly these to what was known before.
-/

set_option autoImplicit false

namespace JsonShape

open Json (Value Member)

namespace Json.Value

mutual

def memberCount : Value → Nat
  | .array elements => memberCountElements elements
  | .object members => members.length + memberCountMembers members
  | _ => 0

def memberCountElements : List Value → Nat
  | [] => 0
  | v :: rest => memberCount v + memberCountElements rest

def memberCountMembers : List (Text × Value) → Nat
  | [] => 0
  | (_, v) :: rest => memberCount v + memberCountMembers rest

end

theorem memberCountElements_eq (elements : List Value) :
    memberCountElements elements = (elements.map memberCount).sum := by
  induction elements with
  | nil => rfl
  | cons v rest ih => rw [memberCountElements, ih, List.map_cons, List.sum_cons]

theorem memberCountMembers_eq (members : List Member) :
    memberCountMembers members = (members.map (·.2.memberCount)).sum := by
  induction members with
  | nil => rfl
  | cons m rest ih => rw [memberCountMembers, ih, List.map_cons, List.sum_cons]

end Json.Value

namespace Inference

/-! ## Findings -/

def arrayFinding? (shapes : List Shape) : Option Finding :=
  if shapes.isEmpty then some .emptyArray
  else if shapes.all Shape.isObject then none
  else if shapes.any Shape.isObject then some .mixedObjects
  else if (Shape.merge shapes).isUnion then some .mixedElements
  else none

def noted (path : Path) (finding : Option Finding) : List Diagnostic :=
  (finding.map fun found => ⟨found, path⟩).toList

mutual

/-- The diagnostics of a value at a place, those of an array after those of its elements. -/
def notes (dates : Bool) (path : Path) : Value → List Diagnostic
  | .string s => if dates && s.isDate then [⟨.dateString, path⟩] else []
  | .array elements =>
    notesElements dates path 0 elements ++ noted path (arrayFinding? (outlineElements dates elements))
  | .object members => notesMembers dates path members
  | _ => []

def notesElements (dates : Bool) (path : Path) (i : Nat) : List Value → List Diagnostic
  | [] => []
  | v :: rest => notes dates (path ++ [.index i]) v ++ notesElements dates path (i + 1) rest

def notesMembers (dates : Bool) (path : Path) : List (Text × Value) → List Diagnostic
  | [] => []
  | (key, v) :: rest => notes dates (path ++ [.key key]) v ++ notesMembers dates path rest

end

theorem notesElements_eq (dates : Bool) (path : Path) (i : Nat) (elements : List Value) :
    notesElements dates path i elements =
      (elements.zipIdx i).flatMap fun c => notes dates (path ++ [.index c.2]) c.1 := by
  induction elements generalizing i with
  | nil => rfl
  | cons v rest ih => rw [notesElements, ih, List.zipIdx_cons, List.flatMap_cons]

theorem notesMembers_eq (dates : Bool) (path : Path) (members : List Member) :
    notesMembers dates path members =
      members.flatMap fun m => notes dates (path ++ [.key m.1]) m.2 := by
  induction members with
  | nil => rfl
  | cons m rest ih => rw [notesMembers, ih, List.flatMap_cons]

theorem report_toList (p : Progress) (finding : Finding) (path : Path) :
    (p.report finding path).diagnostics.toList = p.diagnostics.toList ++ noted path (some finding) := by
  simp [Progress.report, noted]

/-! ## Closing a container -/

theorem closeObject_notes (o : Options) (path : Path) (members : List (Text × Shape)) (p : Progress) :
    (closeObject o path members p).2.diagnostics = p.diagnostics := by
  rw [closeObject]
  split <;> rfl

theorem closeObject_fieldCount (o : Options) (path : Path) (members : List (Text × Shape))
    (p : Progress) : (closeObject o path members p).2.fieldCount = p.fieldCount := by
  rw [closeObject]
  split <;> rfl

theorem filter_not_object_isEmpty (shapes : List Shape) :
    (shapes.filter (!·.isObject)).isEmpty = shapes.all Shape.isObject := by
  rw [Bool.eq_iff_iff, List.isEmpty_iff, List.filter_eq_nil_iff, List.all_eq_true]
  simp

theorem filterMap_record?_isEmpty (shapes : List Shape) :
    (shapes.filterMap Shape.record?).isEmpty = !shapes.any Shape.isObject := by
  rw [Bool.eq_iff_iff, List.isEmpty_iff, filterMap_record?_eq_nil]
  simp

theorem arrayFinding?_unnamed (shapes : List Shape) :
    arrayFinding? (shapes.map Shape.unnamed) = arrayFinding? shapes := by
  simp only [arrayFinding?, List.isEmpty_map, List.all_map, List.any_map, Function.comp_def,
    Shape.isObject_unnamed, Shape.merge_unnamed, Shape.isUnion_unnamed]

theorem closeArray_notes (path : Path) (shapes : List Shape) (p : Progress) :
    (closeArray path shapes p).2.diagnostics.toList =
      p.diagnostics.toList ++ noted path (arrayFinding? shapes) := by
  simp only [closeArray, arrayFinding?, filter_not_object_isEmpty, filterMap_record?_isEmpty]
  cases shapes.isEmpty with
  | true => exact report_toList p .emptyArray path
  | false =>
    cases shapes.all Shape.isObject with
    | true => exact (List.append_nil _).symm
    | false =>
      cases objects : shapes.any Shape.isObject with
      | true => exact report_toList p .mixedObjects path
      | false =>
        -- without objects the merge is that of all elements
        have others : shapes.filter (!·.isObject) = shapes := by
          rw [List.filter_eq_self]
          simpa using objects
        simp only [others, Bool.not_false, if_true, Bool.false_eq_true, if_false]
        split
        · exact report_toList p .mixedElements path
        · exact (List.append_nil _).symm

theorem closeArray_fieldCount (path : Path) (shapes : List Shape) (p : Progress) :
    (closeArray path shapes p).2.fieldCount = p.fieldCount := by
  unfold closeArray
  dsimp only
  split
  · rfl
  · split
    · rfl
    · split
      · split <;> rfl
      · rfl

/-! ## Inference of a value -/

theorem inferText_notes (o : Options) (path : Path) (s : Text) (p : Progress) :
    (inferText o path s p).2.diagnostics.toList =
      p.diagnostics.toList ++ notes o.detectsDates path (.string s) := by
  rw [inferText, notes]
  split
  · exact report_toList p .dateString path
  · exact (List.append_nil _).symm

/-- At every place, inference of the value adds its notes and its members. -/
structure Adds (o : Options) (v : Value) : Prop where
  notes : ∀ path p, (inferAt o path v p).2.diagnostics.toList =
    p.diagnostics.toList ++ notes o.detectsDates path v
  members : ∀ path p, (inferAt o path v p).2.fieldCount = p.fieldCount + v.memberCount

theorem inferElements_adds {o : Options} {elements : List Value} (each : ∀ v ∈ elements, Adds o v)
    (path : Path) (i : Nat) (p : Progress) :
    (inferElements o path i elements p).2.diagnostics.toList =
        p.diagnostics.toList ++ notesElements o.detectsDates path i elements ∧
      (inferElements o path i elements p).2.fieldCount =
        p.fieldCount + Value.memberCountElements elements := by
  induction elements generalizing i p with
  | nil => exact ⟨(List.append_nil _).symm, rfl⟩
  | cons v rest ih =>
    have here := each v List.mem_cons_self
    obtain ⟨later, counted⟩ := ih (fun w member => each w (List.mem_cons_of_mem v member)) (i + 1)
      (inferAt o (path ++ [.index i]) v p).2
    rw [inferElements, notesElements, Value.memberCountElements]
    constructor
    · rw [later, here.notes, List.append_assoc]
    · rw [counted, here.members, Nat.add_assoc]

theorem inferMembers_adds {o : Options} {members : List Member} (each : ∀ m ∈ members, Adds o m.2)
    (path : Path) (p : Progress) :
    (inferMembers o path members p).2.diagnostics.toList =
        p.diagnostics.toList ++ notesMembers o.detectsDates path members ∧
      (inferMembers o path members p).2.fieldCount =
        p.fieldCount + Value.memberCountMembers members := by
  induction members generalizing p with
  | nil => exact ⟨(List.append_nil _).symm, rfl⟩
  | cons m rest ih =>
    obtain ⟨key, v⟩ := m
    have here : Adds o v := each (key, v) List.mem_cons_self
    obtain ⟨later, counted⟩ := ih (fun w member => each w (List.mem_cons_of_mem (key, v) member))
      (inferAt o (path ++ [.key key]) v p).2
    rw [inferMembers, notesMembers, Value.memberCountMembers]
    constructor
    · rw [later, here.notes, List.append_assoc]
    · rw [counted, here.members, Nat.add_assoc]

theorem inferAt_adds (o : Options) (v : Value) : Adds o v := by
  induction v with
  | array elements ih =>
    constructor
    · intro path p
      have known : ∀ v ∈ elements, ∀ path p,
          (inferAt o path v p).1.unnamed = outline o.detectsDates v :=
        fun v _ path p => inferAt_unnamed o v path p
      have shapes := inferElements_unnamed known path 0 p
      rw [inferAt, closeArray_notes, (inferElements_adds ih path 0 p).1, notes, outlineElements_eq,
        ← shapes, arrayFinding?_unnamed, List.append_assoc]
    · intro path p
      rw [inferAt, closeArray_fieldCount, (inferElements_adds ih path 0 p).2, Value.memberCount]
  | object members ih =>
    constructor
    · intro path p
      rw [inferAt, closeObject_notes, (inferMembers_adds ih path _).1, notes]
      rfl
    · intro path p
      rw [inferAt, closeObject_fieldCount, (inferMembers_adds ih path _).2, Value.memberCount,
        Progress.count, Nat.add_assoc]
  | string s =>
    constructor
    · exact fun path p => inferText_notes o path s p
    · intro path p
      rw [inferAt, inferText]
      split <;> rfl
  | _ => exact ⟨fun _ _ => (List.append_nil _).symm, fun _ _ => rfl⟩

theorem infer_fieldCount (o : Options) (v : Value) : (infer o v).fieldCount = v.memberCount := by
  have fresh : (start o v).fieldCount = 0 := by
    rw [start]
    split <;> rfl
  change (walk o v (start o v)).2.fieldCount = v.memberCount
  rw [walk_eq_inferAt, (inferAt_adds o v).members, fresh, Nat.zero_add]

/-- The diagnostics of a sample: one for a scalar root, and the notes of the value. -/
theorem infer_diagnostics (o : Options) (v : Value) :
    (infer o v).diagnostics =
      noted [] (if v.isContainer then none else some .scalarRoot) ++ notes o.detectsDates [] v := by
  have before : (start o v).diagnostics.toList =
      noted [] (if v.isContainer then none else some .scalarRoot) := by
    rw [start]
    split <;> rfl
  change (walk o v (start o v)).2.diagnostics.toList = _
  rw [walk_eq_inferAt, (inferAt_adds o v).notes, before]

end Inference

end JsonShape
