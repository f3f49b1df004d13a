import JsonShape.Proofs.Observations
import JsonShape.Proofs.Undated

/-! Inference with and without dates.

Looking for dates refines the shape and changes nothing else: both runs draw the same names, and without
dates the shape is that with dates once these are read as strings. Diagnostics are added for the dates that
were found, and for arrays whose elements only dates tell apart.
-/

set_option autoImplicit false

namespace JsonShape

open Json (Value Member lookup?)

namespace Json.Value

/-! ## Places -/

def child? : Value → Segment → Option Value
  | .array elements, .index (.ofNat i) => elements[i]?
  | .object members, .key key => lookup? members key
  | _, _ => none

def at? (v : Value) (path : Path) : Option Value := path.foldlM child? v

theorem at?_concat (v : Value) (path : Path) (segment : Segment) :
    v.at? (path ++ [segment]) = (v.at? path).bind (·.child? segment) := by
  simp [at?]

theorem lookup?_of_mem {members : List Member} (once : (members.map (·.1)).Nodup) {m : Member}
    (member : m ∈ members) : lookup? members m.1 = some m.2 := by
  induction members with
  | nil => cases member
  | cons first rest ih =>
    obtain ⟨fresh, once⟩ := List.nodup_cons.1 once
    rw [lookup?, List.lookup_cons]
    rcases List.mem_cons.1 member with rfl | later
    · rw [beq_self_eq_true]
    · have other : (m.1 == first.1) = false :=
        beq_false_of_ne fun same => fresh (List.mem_map.2 ⟨m, later, same⟩)
      rw [other]
      exact ih once later

def isDate : Value → Bool
  | .string s => s.isDate
  | _ => false

end Json.Value

/-- An array whose elements only dates tell apart. -/
def Shape.collapses : Shape → Bool
  | .array element => element.isUnion && !element.undated.isUnion
  | _ => false

theorem Shape.collapses_unnamed (s : Shape) : s.unnamed.collapses = s.collapses := by
  cases s with
  | array element =>
    rw [unnamed_array, collapses, collapses, isUnion_unnamed, ← undated_unnamed, isUnion_unnamed]
  | union variants => rw [unnamed_union]; rfl
  | object name properties => rw [unnamed_object]; rfl
  | _ => rfl

namespace Inference

/-! ## Shapes that are found -/

theorem sampled_of_outline {dates : Bool} {v : Value} {s : Shape} (found : s.unnamed = outline dates v)
    (distinct : v.keysDistinct) : s.Sampled where
  single := by rw [← Shape.isUnion_unnamed, found, isUnion_outline]
  distinct := Shape.keysDistinct_of_unnamed (found ▸ outline_keysDistinct distinct)

theorem outline_record?_unnamed {dates : Bool} {v : Value} {s : Shape} (found : s.unnamed = outline dates v)
    {r : Record} (object : s.record? = some r) : (outline dates v).record? = some r.unnamed := by
  rw [← found, Shape.record?_unnamed, object]
  rfl

theorem properties_sampled {dates : Bool} {v : Value} {s : Shape} (found : s.unnamed = outline dates v)
    (distinct : v.keysDistinct) {r : Record} (object : s.record? = some r) :
    ∀ p ∈ r.properties, p.Sampled := by
  have recorded := outline_record?_unnamed found object
  have alone : ∀ w ∈ [v], (outline dates w).NormalAt false :=
    List.forall_mem_singleton.2 (outline_normalAt dates v)
  have plain := outline_record_plain alone r.unnamed (by simp [recorded])
  intro p member
  have known := plain p.unnamed (List.mem_map_of_mem member)
  have whole := (sampled_of_outline found distinct).distinct
  rw [Shape.record?_eq_some.1 object] at whole
  refine ⟨⟨?_, (Shape.keysDistinct_object.1 whole).2 p member⟩, ?_⟩
  · simpa using known.single
  · simpa using known.notNull

/-! ## Two runs -/

/-- Of two runs the second looks for dates. The first gives the same shape but for the dates, and has drawn
the same names. -/
structure Follows (plain dated : Shape × Progress) : Prop where
  shape : plain.1 = dated.1.undated
  names : plain.2.names = dated.2.names

theorem propertyOf_undated {key : Text} {s : Shape} (single : s.isUnion = false) :
    (propertyOf key s).undated = propertyOf key s.undated := by
  rw [propertyOf, propertyOf, Shape.isNull_undated single]
  split <;> rfl

theorem allocate_follows {p p' : Progress} (names : p.names = p'.names) (keys : List Text) :
    (p.allocate keys).1 = (p'.allocate keys).1 ∧
      (p.allocate keys).2.names = (p'.allocate keys).2.names := by
  simp only [Progress.allocate, names, and_self]

theorem closeObject_follows {o o' : Options} (root : o.rootName = o'.rootName) (path : Path)
    {members : List (Text × Shape)} (single : ∀ m ∈ members, m.2.isUnion = false) {p p' : Progress}
    (names : p.names = p'.names) :
    Follows (closeObject o path (members.map fun m => (m.1, m.2.undated)) p)
      (closeObject o' path members p') := by
  have properties : (members.map fun m => (m.1, m.2.undated)).map (fun m => propertyOf m.1 m.2) =
      (members.map fun m => propertyOf m.1 m.2).map Property.undated := by
    rw [List.map_map, List.map_map]
    exact List.map_congr_left fun m member => (propertyOf_undated (single m member)).symm
  obtain ⟨name, after⟩ := allocate_follows names path.keys
  rw [closeObject, closeObject]
  split
  · refine ⟨?_, names⟩
    rw [Shape.undated_object, ← properties, root]
  · refine ⟨?_, after⟩
    change Shape.object (p.allocate path.keys).1 _ = (Shape.object (p'.allocate path.keys).1 _).undated
    rw [Shape.undated_object, ← properties, name]

theorem closeItems_follows (path : Path) {records : List Record}
    (sampled : ∀ r ∈ records, ∀ p ∈ r.properties, p.Sampled) {p p' : Progress}
    (names : p.names = p'.names) :
    Follows (closeItems path (records.map Record.undated) p) (closeItems path records p') := by
  obtain ⟨name, after⟩ := allocate_follows names (path.keys ++ [itemKey])
  refine ⟨?_, after⟩
  change (Record.merge (records.map Record.undated) (p.allocate (path.keys ++ [itemKey])).1).toShape =
    (Record.merge records (p'.allocate (path.keys ++ [itemKey])).1).toShape.undated
  rw [Record.merge_undated sampled, name, Record.toShape, Record.toShape, Shape.undated_object]
  rfl

theorem filterMap_record?_undated {shapes : List Shape} (single : ∀ s ∈ shapes, s.isUnion = false) :
    (shapes.map Shape.undated).filterMap Shape.record? =
      (shapes.filterMap Shape.record?).map Record.undated := by
  rw [List.filterMap_map, List.map_filterMap]
  exact List.filterMap_congr fun s member => Shape.record?_undated (single s member)

theorem filter_not_object_undated {shapes : List Shape} (single : ∀ s ∈ shapes, s.isUnion = false) :
    (shapes.map Shape.undated).filter (!·.isObject) =
      (shapes.filter (!·.isObject)).map Shape.undated := by
  rw [List.filter_map]
  exact congrArg _ (List.filter_congr fun s member =>
    congrArg (!·) (Shape.isObject_undated (single s member)))

/-- All four cases of an array are decided by which elements are objects, and dates are none. -/
theorem closeArray_follows (path : Path) {shapes : List Shape} (sampled : ∀ s ∈ shapes, s.Sampled)
    (properties : ∀ r ∈ shapes.filterMap Shape.record?, ∀ p ∈ r.properties, p.Sampled)
    {p p' : Progress} (names : p.names = p'.names) :
    Follows (closeArray path (shapes.map Shape.undated) p) (closeArray path shapes p') := by
  have single : ∀ s ∈ shapes, s.isUnion = false := fun s member => (sampled s member).single
  have others : ∀ s ∈ shapes.filter (!·.isObject), s.Sampled := fun s member =>
    sampled s (List.mem_of_mem_filter member)
  have items {q q' : Progress} (names : q.names = q'.names) := closeItems_follows path properties names
  have item {q : Progress} : (closeItems path (shapes.filterMap Shape.record?) q).1.Sampled := by
    refine ⟨rfl, Record.merge_keysDistinct (fun r found => ?_) _⟩
    obtain ⟨s, member, object⟩ := List.mem_filterMap.1 found
    exact Shape.record?_eq_some.1 object ▸ (sampled s member).distinct
  rw [closeArray, closeArray, filterMap_record?_undated single, filter_not_object_undated single,
    List.isEmpty_map, List.isEmpty_map, List.isEmpty_map]
  split
  · exact ⟨rfl, names⟩
  · split
    · obtain ⟨shape, after⟩ := items names
      exact ⟨congrArg Shape.array shape, after⟩
    · split
      · refine ⟨?_, ?_⟩
        · rw [Shape.undated_array, Shape.merge_undated others]
        · dsimp only
          split <;> split <;> exact names
      · obtain ⟨shape, after⟩ := @items (p.report .mixedObjects path) (p'.report .mixedObjects path) names
        refine ⟨?_, after⟩
        change Shape.array (Shape.merge (_ ++ [_])) = (Shape.array (Shape.merge (_ ++ [_]))).undated
        rw [shape, Shape.undated_array, Shape.merge_undated, List.map_append, List.map_singleton]
        rw [List.forall_mem_append, List.forall_mem_singleton]
        exact ⟨others, item⟩

def Options.withDates (o : Options) (dates : Bool) : Options := { o with detectsDates := dates }

/-- At every place, and whatever was found before, the runs go together if they have drawn the same
names. -/
def FollowsAt (o : Options) (v : Value) : Prop :=
  ∀ path p p', p.names = p'.names →
    Follows (inferAt (o.withDates false) path v p) (inferAt (o.withDates true) path v p')

theorem inferElements_follows {o : Options} {elements : List Value}
    (each : ∀ v ∈ elements, FollowsAt o v) (path : Path) (i : Nat) {p p' : Progress}
    (names : p.names = p'.names) :
    (inferElements (o.withDates false) path i elements p).1 =
        (inferElements (o.withDates true) path i elements p').1.map Shape.undated ∧
      (inferElements (o.withDates false) path i elements p).2.names =
        (inferElements (o.withDates true) path i elements p').2.names := by
  induction elements generalizing i p p' with
  | nil => exact ⟨rfl, names⟩
  | cons v rest ih =>
    obtain ⟨shape, after⟩ := each v List.mem_cons_self (path ++ [.index i]) p p' names
    obtain ⟨shapes, last⟩ := ih (fun w member => each w (List.mem_cons_of_mem v member)) (i + 1) after
    simp only [inferElements, List.map_cons]
    exact ⟨congrArg₂ List.cons shape shapes, last⟩

theorem inferMembers_follows {o : Options} {members : List Member}
    (each : ∀ m ∈ members, FollowsAt o m.2) (path : Path) {p p' : Progress}
    (names : p.names = p'.names) :
    (inferMembers (o.withDates false) path members p).1 =
        (inferMembers (o.withDates true) path members p').1.map Shape.undated ∧
      (inferMembers (o.withDates false) path members p).2.names =
        (inferMembers (o.withDates true) path members p').2.names := by
  induction members generalizing p p' with
  | nil => exact ⟨rfl, names⟩
  | cons m rest ih =>
    obtain ⟨key, v⟩ := m
    obtain ⟨shape, after⟩ := each (key, v) List.mem_cons_self (path ++ [.key key]) p p' names
    obtain ⟨shapes, last⟩ := ih (fun w member => each w (List.mem_cons_of_mem (key, v) member)) after
    simp only [inferMembers, List.map_cons]
    exact ⟨congrArg₂ List.cons shape shapes, last⟩

theorem mem_inferElements {o : Options} {elements : List Value} {path : Path} {i : Nat} {p : Progress}
    {s : Shape} (member : s ∈ (inferElements o path i elements p).1) :
    ∃ v ∈ elements, s.unnamed = outline o.detectsDates v := by
  have image := List.mem_map_of_mem (f := Shape.unnamed) member
  rw [inferElements_unnamed fun v _ path p => inferAt_unnamed o v path p] at image
  obtain ⟨v, among, same⟩ := List.mem_map.1 image
  exact ⟨v, among, same.symm⟩

theorem mem_inferMembers {o : Options} {members : List Member} {path : Path} {p : Progress} {s : Shape}
    (member : s ∈ (inferMembers o path members p).1) :
    ∃ m ∈ members, s.unnamed = outline o.detectsDates m.2 := by
  induction members generalizing p with
  | nil => cases member
  | cons m rest ih =>
    obtain ⟨key, v⟩ := m
    rcases List.mem_cons.1 member with rfl | later
    · exact ⟨(key, v), List.mem_cons_self, inferAt_unnamed o v _ p⟩
    · obtain ⟨n, among, found⟩ := ih later
      exact ⟨n, List.mem_cons_of_mem _ among, found⟩

theorem inferText_follows (o : Options) (s : Text) : FollowsAt o (.string s) := by
  intro path p p' names
  rw [inferAt, inferAt, inferText, inferText]
  split
  · next dated => cases dated
  · split <;> exact ⟨rfl, names⟩

theorem inferAt_follows (o : Options) {v : Value} (distinct : v.keysDistinct) : FollowsAt o v := by
  induction v with
  | string s => exact inferText_follows o s
  | array elements ih =>
    rw [Value.keysDistinct_array] at distinct
    intro path p p' names
    obtain ⟨shapes, after⟩ :=
      inferElements_follows (fun v member => ih v member (distinct v member)) path 0 names
    rw [inferAt, inferAt]
    dsimp only
    rw [shapes]
    refine closeArray_follows path (fun s member => ?_) (fun r found => ?_) after
    · obtain ⟨v, among, same⟩ := mem_inferElements member
      exact sampled_of_outline same (distinct v among)
    · obtain ⟨s, member, object⟩ := List.mem_filterMap.1 found
      obtain ⟨v, among, same⟩ := mem_inferElements member
      exact properties_sampled same (distinct v among) object
  | object members ih =>
    obtain ⟨_, inner⟩ := Value.keysDistinct_object.1 distinct
    intro path p p' names
    have counted : (p.count members.length).names = (p'.count members.length).names := names
    obtain ⟨shapes, after⟩ :=
      inferMembers_follows (fun m member => ih m member (inner m member)) path counted
    rw [inferAt, inferAt]
    dsimp only
    rw [shapes]
    rw [List.zip_map_right]
    refine closeObject_follows rfl path (fun m member => ?_) after
    obtain ⟨n, among, same⟩ := mem_inferMembers (List.of_mem_zip member).2
    exact (sampled_of_outline same (inner n among)).single
  | _ => exact fun path p p' names => ⟨rfl, names⟩

theorem infer_undated (o : Options) {v : Value} (distinct : v.keysDistinct) :
    (infer (o.withDates false) v).shape = (infer (o.withDates true) v).shape.undated := by
  rw [infer_shape, infer_shape]
  exact (inferAt_follows o distinct [] _ _ rfl).shape

theorem outline_undated {v : Value} (distinct : v.keysDistinct) :
    outline false v = (outline true v).undated := by
  have runs := congrArg Shape.unnamed (infer_undated {} distinct)
  rwa [Shape.undated_unnamed, infer_unnamed, infer_unnamed] at runs

/-! ## Diagnostics -/

theorem arrayFinding?_undated {shapes : List Shape} (sampled : ∀ s ∈ shapes, s.Sampled) :
    arrayFinding? (shapes.map Shape.undated) =
      (arrayFinding? shapes).filter fun found =>
        !(found = .mixedElements && !(Shape.merge shapes).undated.isUnion) := by
  have objects : (shapes.map Shape.undated).map Shape.isObject = shapes.map Shape.isObject := by
    rw [List.map_map]
    exact List.map_congr_left fun s member => Shape.isObject_undated (sampled s member).single
  have all : (shapes.map Shape.undated).all Shape.isObject = shapes.all Shape.isObject := by
    simpa only [List.all_map, Function.id_comp] using congrArg (List.all · id) objects
  have any : (shapes.map Shape.undated).any Shape.isObject = shapes.any Shape.isObject := by
    simpa only [List.any_map, Function.id_comp] using congrArg (List.any · id) objects
  rw [arrayFinding?, arrayFinding?, List.isEmpty_map, all, any, ← Shape.merge_undated sampled]
  split
  · rfl
  · split
    · rfl
    · split
      · rfl
      · by_cases union : (Shape.merge shapes).isUnion
        · rw [if_pos union]
          cases (Shape.merge shapes).undated.isUnion <;> rfl
        · rw [Bool.not_eq_true] at union
          simp [union, Shape.isUnion_undated union]

/-- Whether the diagnostic is there only because dates are looked for: it tells of a date, or of an array
whose elements are all of one shape once dates are read as strings. -/
def toldByDates (o : Options) (v : Value) (d : Diagnostic) : Bool :=
  (v.at? d.path).any fun w =>
    match d.finding with
    | .dateString => w.isDate
    | .mixedElements => (infer (o.withDates true) w).shape.collapses
    | _ => false

theorem filter_noted (p : Diagnostic → Bool) (path : Path) (finding : Option Finding) :
    (noted path finding).filter p = noted path (finding.filter fun found => p ⟨found, path⟩) := by
  cases finding with
  | none => rfl
  | some found => cases told : p ⟨found, path⟩ <;> simp [noted, told, Option.filter]

theorem elementShapes_of_plain {shapes : List Shape} (plain : ∀ s ∈ shapes, s.isObject = false) :
    elementShapes shapes = shapes := by
  rw [elementShapes, filterMap_record?_eq_nil.2 plain, List.append_nil, List.filter_eq_self]
  exact fun s member => by rw [plain s member]; rfl

section

variable {o : Options} {whole : Value}

theorem arrayNotes_undated {elements : List Value} (distinct : ∀ v ∈ elements, v.keysDistinct)
    {path : Path} (place : whole.at? path = some (.array elements)) :
    noted path (arrayFinding? (elements.map (outline false))) =
      (noted path (arrayFinding? (elements.map (outline true)))).filter (!toldByDates o whole ·) := by
  have undated : elements.map (outline false) = (elements.map (outline true)).map Shape.undated := by
    rw [List.map_map]
    exact List.map_congr_left fun v member => outline_undated (distinct v member)
  have sampled : ∀ s ∈ elements.map (outline true), s.Sampled :=
    List.forall_mem_map.2 fun v member =>
      ⟨isUnion_outline true v, outline_keysDistinct (distinct v member)⟩
  have found : (infer (o.withDates true) (.array elements)).shape.collapses =
      (Shape.array (Shape.merge (elementShapes (elements.map (outline true))))).collapses := by
    rw [← Shape.collapses_unnamed, infer_unnamed, ← outline_array]
    rfl
  rw [undated, arrayFinding?_undated sampled, filter_noted]
  refine congrArg (noted path) ?_
  unfold arrayFinding?
  split
  · simp [Option.filter, toldByDates, place]
  · split
    · rfl
    · split
      · simp [Option.filter, toldByDates, place]
      · next none =>
        have plain : ∀ s ∈ elements.map (outline true), s.isObject = false := by simpa using none
        rw [elementShapes_of_plain plain] at found
        split
        · next union =>
          rw [Shape.collapses, union, Bool.true_and] at found
          simp [Option.filter, toldByDates, place, found]
        · rfl

theorem notesElements_undated {elements : List Value} {path : Path} {i : Nat}
    (each : ∀ j w, elements[j]? = some w → notes false (path ++ [.index ↑(i + j)]) w =
      (notes true (path ++ [.index ↑(i + j)]) w).filter (!toldByDates o whole ·)) :
    notesElements false path i elements =
      (notesElements true path i elements).filter (!toldByDates o whole ·) := by
  induction elements generalizing i with
  | nil => rfl
  | cons v rest ih =>
    rw [notesElements, notesElements, List.filter_append]
    have here := each 0 v rfl
    rw [Nat.add_zero] at here
    rw [here, ih fun j w found => ?_]
    have later := each (j + 1) w found
    rwa [← Nat.add_assoc, Nat.add_right_comm] at later

theorem notes_undated {v : Value} (distinct : v.keysDistinct) {path : Path}
    (place : whole.at? path = some v) :
    notes false path v = (notes true path v).filter (!toldByDates o whole ·) := by
  induction v generalizing path with
  | string s =>
    cases dated : s.isDate with
    | false => simp [notes, dated]
    | true => simp [notes, dated, toldByDates, place, Value.isDate]
  | array elements ih =>
    rw [Value.keysDistinct_array] at distinct
    rw [notes, notes, List.filter_append, outlineElements_eq, outlineElements_eq,
      arrayNotes_undated distinct place, notesElements_undated fun j w found => ?_]
    have member := List.mem_of_getElem? found
    apply ih w member (distinct w member)
    rw [Value.at?_concat, place, Nat.zero_add]
    exact found
  | object members ih =>
    obtain ⟨once, inner⟩ := Value.keysDistinct_object.1 distinct
    rw [notes, notes, notesMembers_eq, notesMembers_eq, List.filter_flatMap]
    refine List.flatMap_congr fun m member => ih m member (inner m member) ?_
    rw [Value.at?_concat, place]
    exact Value.lookup?_of_mem once member
  | _ => rfl

end

theorem infer_diagnostics_undated (o : Options) {v : Value} (distinct : v.keysDistinct) :
    (infer (o.withDates false) v).diagnostics =
      (infer (o.withDates true) v).diagnostics.filter (!toldByDates o v ·) := by
  have atRoot : v.at? [] = some v := rfl
  have notes := notes_undated (o := o) distinct atRoot
  rw [infer_diagnostics, infer_diagnostics, List.filter_append, filter_noted]
  refine congrArg₂ _ (congrArg (noted []) ?_) notes
  split
  · rfl
  · simp [Option.filter, toldByDates, atRoot]

structure DatesRefine (o : Options) (v : Value) : Prop where
  /-- Read as strings, the dates are gone without a trace: names, keys, flags and order are the same. -/
  shape : (infer (o.withDates false) v).shape = (infer (o.withDates true) v).shape.undated
  fieldCount : (infer (o.withDates false) v).fieldCount = (infer (o.withDates true) v).fieldCount
  sublist : (infer (o.withDates false) v).diagnostics.Sublist (infer (o.withDates true) v).diagnostics
  /-- Added are the diagnostics that dates tell, and these only. -/
  diagnostics : (infer (o.withDates false) v).diagnostics =
    (infer (o.withDates true) v).diagnostics.filter (!toldByDates o v ·)

/-- Looking for dates only refines what is found. Values that were read list each key once. -/
theorem infer_datesRefine (o : Options) {v : Value} (distinct : v.keysDistinct) : DatesRefine o v where
  shape := infer_undated o distinct
  fieldCount := by rw [infer_fieldCount, infer_fieldCount]
  sublist := infer_diagnostics_undated o distinct ▸ List.filter_sublist
  diagnostics := infer_diagnostics_undated o distinct

def datedRows : Value :=
  .array [
    .object [("days", .array [.array [.string "2024-01-02"], .array [.string "soon"]]), ("by", .null)],
    .object [("days", .array [.string "2024-01-02T10:00", .null, .string "later"])]]

theorem infer_datesRefine_datedRows :
    datedRows.keysDistinct ∧ DatesRefine {} datedRows ∧
      (infer (Options.withDates {} true) datedRows).diagnostics.map (·.finding) =
        [.dateString, .mixedElements, .dateString, .mixedElements] ∧
      (infer (Options.withDates {} false) datedRows).diagnostics.map (·.finding) = [.mixedElements] := by
  have distinct : datedRows.keysDistinct = true := by cbv
  refine ⟨distinct, infer_datesRefine {} distinct, ?_, ?_⟩
  · rw [infer_diagnostics]
    cbv
  · rw [infer_diagnostics]
    cbv

end Inference

end JsonShape
