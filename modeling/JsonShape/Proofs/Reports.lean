import JsonShape.Proofs.ArrayOfObjects
import JsonShape.Proofs.Conversion
import JsonShape.Proofs.Places

/-! What is reported where.

Inference goes to the places of a value from the inside out, and what it reports of a place is told by what
stands there. An array of several shapes other than objects is reported when two of these shapes differ:
these are the arrays whose merge is a union.
-/

set_option autoImplicit false

namespace JsonShape

open Json (Value Member)

/-! ## Merges that are unions -/

namespace Shape

/-- A merge of single known shapes is a union when two of them differ. -/
theorem isUnion_merge_iff {shapes : List Shape} (keyed : ∀ s ∈ shapes, s.keysDistinct)
    (plain : ∀ s ∈ shapes, s.isUnion = false ∧ s.isUnknown = false) :
    (merge shapes).isUnion ↔ ∃ s ∈ shapes, ∃ t ∈ shapes, ¬ same s t := by
  by_cases none : shapes = []
  · subst none
    constructor
    · intro union
      cases union
    · rintro ⟨s, member, _⟩
      cases member
  have single : ∀ s ∈ shapes, s.isUnion = false := fun s member => (plain s member).1
  have known : preferKnown shapes = shapes := preferKnown_of_known fun s member => (plain s member).2
  have kept : (distinct shapes).Sublist shapes := distinct_sublist shapes
  have apart := distinct_pairwise shapes
  rw [merge_eq_choices none, choices_of_single single, known]
  rcases firsts : distinct shapes with _ | ⟨first, _ | ⟨second, rest⟩⟩
  · exact absurd firsts (distinct_ne_nil none)
  · -- a single shape is kept, so all are equal to it and to each other
    rw [firsts] at kept
    have inner := kept.subset (List.mem_singleton_self first)
    have all {s : Shape} (member : s ∈ shapes) : same first s := by
      obtain ⟨r, found, equal⟩ := exists_mem_distinct member
      rw [firsts, List.mem_singleton] at found
      subst found
      exact equal.elim (· ▸ same_refl (keyed r inner)) id
    constructor
    · intro union
      cases (single first inner).symm.trans union
    · rintro ⟨s, inFirst, t, inSecond, differ⟩
      exact absurd (same_trans (same_symm (keyed s inFirst) (all inFirst)) (all inSecond)) differ
  · rw [firsts] at kept apart
    have differ := (List.pairwise_cons.1 apart).1 second List.mem_cons_self
    exact ⟨fun _ => ⟨first, kept.subset (by simp), second, kept.subset (by simp), differ⟩, fun _ => rfl⟩

end Shape

/-! ## Entries -/

/-- Entries in the order of what they are about, at most one for each. -/
inductive Lists {α β : Type} (told : α → β → Prop) : List α → List β → Prop where
  | nil : Lists told [] []
  | silent {a : α} {as : List α} {bs : List β} (silent : ∀ b, ¬ told a b) (rest : Lists told as bs) :
      Lists told (a :: as) bs
  | entry {a : α} {b : β} {as : List α} {bs : List β} (here : told a b) (rest : Lists told as bs) :
      Lists told (a :: as) (b :: bs)

theorem lists_iff {α β : Type} {told : α → β → Prop} {f : α → Option β} {as : List α}
    (known : ∀ a ∈ as, ∀ b, told a b ↔ f a = some b) {bs : List β} :
    Lists told as bs ↔ bs = as.filterMap f := by
  induction as generalizing bs with
  | nil =>
    constructor
    · intro lists
      cases lists
      rfl
    · rintro rfl
      exact .nil
  | cons a as ih =>
    obtain ⟨here, later⟩ := List.forall_mem_cons.1 known
    rw [List.filterMap_cons]
    constructor
    · intro lists
      cases lists with
      | silent silent rest =>
        cases found : f a with
        | none => exact (ih later).1 rest
        | some b => exact absurd ((here b).2 found) (silent b)
      | @entry _ b _ _ said rest => rw [(here b).1 said, (ih later).1 rest]
    · cases found : f a with
      | none =>
        rintro rfl
        refine .silent (fun b said => ?_) ((ih later).2 rfl)
        cases found.symm.trans ((here b).1 said)
      | some b =>
        rintro rfl
        exact .entry ((here b).2 found) ((ih later).2 rfl)

def Diagnostic.entry (d : Diagnostic) : Level × Text × Text := (d.level, d.message, d.path.format)

namespace Inference

inductive Says (o : Options) : Path × Value → Level × Text × Text → Prop where
  | emptyArray (path : Path) : Says o (path, .array [])
      (.warning, "Empty array at \"" ++ path.display ++ "\", defaulting to unknown element type.", path.format)
  | dateString {s : Text} (detected : o.detectsDates) (dated : s.isDate) (path : Path) :
      Says o (path, .string s) (.info, "Detected ISO date string at \"" ++ path.format ++ "\".", path.format)
  | mixedObjects {elements : List Value} (object : ∃ v ∈ elements, v.members?.isSome)
      (other : ∃ v ∈ elements, v.members? = none) (path : Path) : Says o (path, .array elements)
      (.warning, "Mixed element types (objects and primitives) in array at \"" ++ path.display ++ "\".",
        path.format)
  | mixedElements {elements : List Value} (others : ∀ v ∈ elements, v.members? = none)
      (differ : ∃ v ∈ elements, ∃ w ∈ elements, ¬ Shape.same (infer o v).shape (infer o w).shape)
      (path : Path) : Says o (path, .array elements)
      (.warning, "Mixed element types in array at \"" ++ path.display ++ "\".", path.format)

def finding? (dates : Bool) : Value → Option Finding
  | .string s => if dates && s.isDate then some .dateString else none
  | .array elements => arrayFinding? (elements.map (outline dates))
  | _ => none

/-! ## Notes of the places -/

theorem notes_eq (dates : Bool) (path : Path) (v : Value) :
    notes dates path v =
      (v.inside.flatMap fun c => notes dates (path ++ [c.1]) c.2) ++ noted path (finding? dates v) := by
  cases v with
  | string s =>
    rw [notes, finding?]
    split <;> rfl
  | array elements =>
    rw [notes, notesElements_eq, outlineElements_eq, Value.inside_array, List.flatMap_map]
    rfl
  | object members =>
    rw [notes, notesMembers_eq, Value.inside_object, List.flatMap_map]
    exact (List.append_nil _).symm
  | _ => rfl

theorem notes_places (dates : Bool) (path : Path) (v : Value) :
    notes dates path v = (v.places path).filterMap fun place =>
      (finding? dates place.2).map fun found => ⟨found, place.1⟩ := by
  induction v using Value.inside_induction generalizing path with
  | node v ih =>
    rw [notes_eq, Value.places_eq, List.filterMap_append, List.filterMap_flatMap]
    refine congrArg₂ _ (List.flatMap_congr fun c inside => ih c inside _) ?_
    cases found : finding? dates v <;> simp [noted, found]

/-! ## Members of the places -/

theorem memberCount_eq (v : Value) :
    v.memberCount = (v.inside.map (·.2.memberCount)).sum + (v.members?.map List.length).getD 0 := by
  cases v with
  | array elements =>
    have values : (Value.array elements).inside.map (·.2) = elements := by
      rw [Value.inside_array, List.map_map]
      exact List.zipIdx_map_fst 0 elements
    have counts : (Value.array elements).inside.map (·.2.memberCount) = elements.map Value.memberCount := by
      rw [← congrArg (List.map Value.memberCount) values, List.map_map]
      rfl
    rw [Value.memberCount, Value.memberCountElements_eq, counts]
    rfl
  | object members =>
    rw [Value.memberCount, Value.memberCountMembers_eq, Value.inside_object, List.map_map]
    exact Nat.add_comm ..
  | _ => rfl

theorem memberCount_places (path : Path) (v : Value) :
    v.memberCount = (((v.places path).filterMap (·.2.members?)).map List.length).sum := by
  induction v using Value.inside_induction generalizing path with
  | node v ih =>
    have below : v.inside.map (·.2.memberCount) = v.inside.map fun c =>
        (((c.2.places (path ++ [c.1])).filterMap (·.2.members?)).map List.length).sum :=
      List.map_congr_left fun c inside => ih c inside _
    have here : (v.members?.map List.length).getD 0 =
        (([(path, v)].filterMap (·.2.members?)).map List.length).sum := by
      cases own : v.members? <;> simp [own]
    rw [memberCount_eq, below, here, Value.places_eq, List.filterMap_append, List.filterMap_flatMap,
      List.map_append, List.sum_append, List.map_flatMap, List.flatMap_def, List.sum_flatten, List.map_map]
    rfl

/-! ## What is said -/

theorem same_infer (o : Options) (v w : Value) :
    Shape.same (infer o v).shape (infer o w).shape =
      Shape.same (outline o.detectsDates v) (outline o.detectsDates w) := by
  rw [← Shape.same_unnamed, infer_unnamed, infer_unnamed]

theorem arrayFinding?_eq_some {dates : Bool} {elements : List Value} {found : Finding}
    (distinct : ∀ v ∈ elements, v.keysDistinct) : arrayFinding? (elements.map (outline dates)) = some found ↔
      (elements = [] ∧ found = .emptyArray) ∨
      ((∃ v ∈ elements, v.members?.isSome) ∧ (∃ v ∈ elements, v.members? = none) ∧ found = .mixedObjects) ∨
      ((∀ v ∈ elements, v.members? = none) ∧
        (∃ v ∈ elements, ∃ w ∈ elements, ¬ Shape.same (outline dates v) (outline dates w)) ∧
        found = .mixedElements) := by
  have union : (Shape.merge (elements.map (outline dates))).isUnion ↔ _ := Shape.isUnion_merge_iff
    (List.forall_mem_map.2 fun v member => outline_keysDistinct (distinct v member))
    (List.forall_mem_map.2 fun v _ => ⟨isUnion_outline dates v, isUnknown_outline dates v⟩)
  simp only [List.mem_map, exists_exists_and_eq_and] at union
  have all : (elements.map (outline dates)).all Shape.isObject ↔ ¬ ∃ v ∈ elements, v.members? = none := by
    simp [isObject_outline, Option.ne_none_iff_isSome]
  have any : (elements.map (outline dates)).any Shape.isObject ↔ ¬ ∀ v ∈ elements, v.members? = none := by
    simp [isObject_outline, Option.ne_none_iff_isSome]
  have some : (∃ v ∈ elements, v.members?.isSome) ↔ ¬ ∀ v ∈ elements, v.members? = none := by
    simp [Option.ne_none_iff_isSome]
  rw [arrayFinding?, List.isEmpty_map, some]
  simp only [List.isEmpty_iff, all, any, union, @eq_comm _ found]
  by_cases empty : elements = []
  · simp [empty]
  have nonempty : (∀ v ∈ elements, v.members? = none) → ∃ v ∈ elements, v.members? = none := by
    obtain ⟨v, member⟩ := List.exists_mem_of_ne_nil elements empty
    exact fun others => ⟨v, member, others v member⟩
  -- once there is something else than an object, it matters whether there is an object too
  by_cases other : ∃ v ∈ elements, v.members? = none
  · rw [if_neg empty, if_neg (not_not_intro other)]
    by_cases others : ∀ v ∈ elements, v.members? = none
    · rw [if_neg (not_not_intro others)]
      constructor
      · intro finding
        split at finding
        · next differ => exact .inr (.inr ⟨others, differ, Option.some.inj finding⟩)
        · cases finding
      · rintro (⟨none, _⟩ | ⟨object, _⟩ | ⟨_, differ, rfl⟩)
        · exact absurd none empty
        · exact absurd others object
        · rw [if_pos differ]
    · rw [if_pos others]
      simp only [empty, other, others, false_and, true_and, false_or, or_false, not_false_eq_true,
        Option.some_inj]
  · have others := mt nonempty other
    rw [if_neg empty, if_pos other]
    simp only [empty, other, others, false_and, and_false, or_false, reduceCtorEq]

theorem says_iff {o : Options} {path : Path} {v : Value} (distinct : v.keysDistinct)
    (e : Level × Text × Text) :
    Says o (path, v) e ↔
      (finding? o.detectsDates v).map (fun found => Diagnostic.entry ⟨found, path⟩) = some e := by
  rw [Option.map_eq_some_iff]
  cases v with
  | array elements =>
    rw [finding?]
    simp only [arrayFinding?_eq_some (Value.keysDistinct_array.1 distinct)]
    constructor
    · intro told
      cases told with
      | emptyArray => exact ⟨.emptyArray, .inl ⟨rfl, rfl⟩, rfl⟩
      | mixedObjects object other => exact ⟨.mixedObjects, .inr (.inl ⟨object, other, rfl⟩), rfl⟩
      | mixedElements others differ =>
        simp only [same_infer] at differ
        exact ⟨.mixedElements, .inr (.inr ⟨others, differ, rfl⟩), rfl⟩
    · rintro ⟨found, ⟨rfl, rfl⟩ | ⟨object, other, rfl⟩ | ⟨others, differ, rfl⟩, rfl⟩
      · exact .emptyArray path
      · exact .mixedObjects object other path
      · simp only [← same_infer] at differ
        exact .mixedElements others differ path
  | string s =>
    rw [finding?]
    constructor
    · intro told
      cases told with
      | dateString detected dated => exact ⟨.dateString, by rw [detected, dated]; rfl, rfl⟩
    · rintro ⟨found, finding, rfl⟩
      split at finding
      · next both =>
        rw [Bool.and_eq_true] at both
        cases finding
        exact .dateString both.1 both.2 path
      · cases finding
  | _ =>
    constructor
    · intro told
      cases told
    · rintro ⟨_, finding, _⟩
      cases finding

structure Reports (o : Options) (v : Value) : Prop where
  /-- There are the entries of the places from the inside out, and no others. -/
  entries : ∀ entries, Lists (Says o) (v.places []) entries ↔
    entries = (infer o v).diagnostics.map Diagnostic.entry
  places : ∀ path w, (path, w) ∈ v.places [] ↔ v.at? path = some w
  once : ((v.places []).map (·.1)).Nodup
  /-- Values have equal shapes in a run if they have them on their own, wherever they stand. -/
  anywhere : ∀ u w path path' p p', Shape.same (inferAt o path u p).1 (inferAt o path' w p').1 =
    Shape.same (infer o u).shape (infer o w).shape
  noError : (infer o v).hasErrors = false
  members : (infer o v).fieldCount = (((v.places []).filterMap (·.2.members?)).map List.length).sum

/-- Reports of a container. Values that were read list each key once. -/
theorem infer_reports (o : Options) {v : Value} (distinct : v.keysDistinct) (container : v.isContainer) :
    Reports o v where
  entries := by
    intro entries
    have noted : (infer o v).diagnostics.map Diagnostic.entry = (v.places []).filterMap fun place =>
        (finding? o.detectsDates place.2).map fun found => Diagnostic.entry ⟨found, place.1⟩ := by
      rw [infer_diagnostics, if_pos container, noted, Option.map_none, Option.toList_none, List.nil_append,
        notes_places, List.map_filterMap]
      simp only [Option.map_map, Function.comp_def]
    rw [noted]
    refine lists_iff ?_
    rintro ⟨path, w⟩ member e
    exact says_iff (Value.keysDistinct_of_place distinct member) e
  places path w := by simp [Value.mem_places distinct]
  once := Value.nodup_places distinct []
  anywhere u w path path' p p' := by
    rw [same_infer, ← Shape.same_unnamed, inferAt_unnamed, inferAt_unnamed]
  noError := by rw [hasErrors_infer, container]; rfl
  members := by rw [infer_fieldCount, ← memberCount_places]

def survey : Value := .object [
  ("days", .array [.string "2024-02-29", .string "2024-02-29T10:00:00Z"]),
  ("rows", .array [.object [("x", .array []), ("y", .null)], .null, .object [("x", .bool true)]]),
  ("sums", .array [.array [.number (.integer 1), .string "one"], .array [.null]])]

theorem infer_reports_survey :
    survey.keysDistinct ∧ survey.isContainer ∧ Reports { detectsDates := true } survey := by
  have distinct : survey.keysDistinct = true := by cbv
  exact ⟨distinct, rfl, infer_reports { detectsDates := true } distinct rfl⟩

example : (infer { detectsDates := true } survey).fieldCount = 6 ∧
    (infer { detectsDates := true } survey).diagnostics = [
    ⟨.dateString, [.key "days", .index 0]⟩, ⟨.dateString, [.key "days", .index 1]⟩,
    ⟨.emptyArray, [.key "rows", .index 0, .key "x"]⟩, ⟨.mixedObjects, [.key "rows"]⟩,
    ⟨.mixedElements, [.key "sums", .index 0]⟩, ⟨.mixedElements, [.key "sums"]⟩] := by
  rw [infer_fieldCount, infer_diagnostics]
  exact ⟨rfl, by cbv⟩

end Inference

end JsonShape
