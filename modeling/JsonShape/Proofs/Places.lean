import JsonShape.Proofs.DateDetection

/-! The places of a value.

All containers are treated alike: each has values inside it, reached by one segment. The places of a value
are listed from the inside out, the values inside a container in their order and then the container itself,
and every place is listed once.
-/

set_option autoImplicit false

namespace JsonShape.Json.Value

def inside : Value → List (Segment × Value)
  | .array elements => elements.zipIdx.map fun (v, i) => (.index i, v)
  | .object members => members.map fun (key, v) => (.key key, v)
  | _ => []

theorem inside_array (elements : List Value) :
    (array elements).inside = elements.zipIdx.map fun c => (.index c.2, c.1) := rfl

theorem inside_object (members : List Member) :
    (object members).inside = members.map fun m => (.key m.1, m.2) := rfl

theorem mem_inside_array {elements : List Value} {c : Segment × Value} :
    c ∈ (array elements).inside ↔ ∃ i : Nat, c.1 = .index i ∧ elements[i]? = some c.2 := by
  rw [inside_array, List.mem_map]
  constructor
  · rintro ⟨⟨v, i⟩, member, rfl⟩
    exact ⟨i, rfl, List.mem_zipIdx_iff_getElem?.1 member⟩
  · obtain ⟨segment, v⟩ := c
    rintro ⟨i, rfl, found⟩
    exact ⟨(v, i), List.mem_zipIdx_iff_getElem?.2 found, rfl⟩

theorem sizeOf_lt_of_inside {v : Value} {c : Segment × Value} (inside : c ∈ v.inside) :
    sizeOf c.2 < sizeOf v := by
  cases v with
  | array elements =>
    obtain ⟨i, _, found⟩ := mem_inside_array.1 inside
    have smaller := List.sizeOf_lt_of_mem (List.mem_of_getElem? found)
    simp only [Value.array.sizeOf_spec]
    omega
  | object members =>
    obtain ⟨⟨key, w⟩, member, rfl⟩ := List.mem_map.1 inside
    have smaller := List.sizeOf_lt_of_mem member
    simp only [Value.object.sizeOf_spec, Prod.mk.sizeOf_spec] at smaller ⊢
    omega
  | _ => cases inside

theorem inside_induction {motive : Value → Prop} (node : ∀ v, (∀ c ∈ v.inside, motive c.2) → motive v)
    (v : Value) : motive v :=
  node v fun c _inside => inside_induction node c.2
termination_by sizeOf v
decreasing_by exact sizeOf_lt_of_inside _inside

theorem keysDistinct_of_inside {v : Value} (distinct : v.keysDistinct) {c : Segment × Value}
    (inside : c ∈ v.inside) : c.2.keysDistinct := by
  cases v with
  | array elements =>
    obtain ⟨i, _, found⟩ := mem_inside_array.1 inside
    exact keysDistinct_array.1 distinct c.2 (List.mem_of_getElem? found)
  | object members =>
    obtain ⟨m, member, rfl⟩ := List.mem_map.1 inside
    exact (keysDistinct_object.1 distinct).2 m member
  | _ => cases inside

theorem child?_eq_some {v w : Value} (distinct : v.keysDistinct) {segment : Segment} :
    v.child? segment = some w ↔ (segment, w) ∈ v.inside := by
  cases v with
  | array elements =>
    rw [mem_inside_array]
    cases segment with
    | key name => simp [child?]
    | index i =>
      cases i with
      | ofNat i =>
        rw [child?]
        constructor
        · exact fun found => ⟨i, rfl, found⟩
        · rintro ⟨j, same, found⟩
          cases same
          exact found
      | negSucc i => simp [child?]
  | object members =>
    rw [inside_object, List.mem_map]
    cases segment with
    | key name =>
      rw [child?]
      constructor
      · exact fun found => ⟨(name, w), mem_of_lookup? found, rfl⟩
      · rintro ⟨m, member, same⟩
        cases same
        exact lookup?_of_mem (keysDistinct_object.1 distinct).1 member
    | index i => simp [child?]
  | _ => simp [child?, inside]

theorem nodup_segments {v : Value} (distinct : v.keysDistinct) : (v.inside.map (·.1)).Nodup := by
  cases v with
  | array elements =>
    have indices : (array elements).inside.map (·.1) =
        (elements.zipIdx.map Prod.snd).map fun i : Nat => .index i := by
      rw [inside_array, List.map_map, List.map_map]
      rfl
    rw [indices, List.zipIdx_map_snd]
    exact .map (fun i j same => Int.ofNat.inj (Segment.index.inj same)) (List.nodup_range' ..)
  | object members =>
    have keys : (object members).inside.map (·.1) = (members.map (·.1)).map Segment.key := by
      rw [inside_object, List.map_map, List.map_map]
      rfl
    rw [keys]
    exact (keysDistinct_object.1 distinct).1.map fun _ _ same => Segment.key.inj same
  | _ => exact List.nodup_nil

/-! ## Places -/

/-- The places of a value that stands at a path, those inside a container before the container. -/
def places (path : Path) (v : Value) : List (Path × Value) :=
  (v.inside.attach.flatMap fun c => places (path ++ [c.1.1]) c.1.2) ++ [(path, v)]
termination_by sizeOf v
decreasing_by exact sizeOf_lt_of_inside c.2

theorem places_eq (path : Path) (v : Value) :
    v.places path = (v.inside.flatMap fun c => c.2.places (path ++ [c.1])) ++ [(path, v)] := by
  rw [places, List.flatMap_def, List.flatMap_def,
    List.attach_map_val (f := fun c : Segment × Value => c.2.places (path ++ [c.1]))]

/-- The places are all that some path leads to. -/
theorem mem_places {v w : Value} (distinct : v.keysDistinct) {path place : Path} :
    (place, w) ∈ v.places path ↔ ∃ steps, place = path ++ steps ∧ v.at? steps = some w := by
  induction v using inside_induction generalizing path with
  | node v ih =>
    rw [places_eq, List.mem_append, List.mem_flatMap, List.mem_singleton]
    constructor
    · rintro (⟨c, inside, below⟩ | here)
      · obtain ⟨steps, rfl, leads⟩ := (ih c inside (keysDistinct_of_inside distinct inside)).1 below
        refine ⟨c.1 :: steps, by simp, ?_⟩
        have step : v.child? c.1 = some c.2 := (child?_eq_some distinct).2 inside
        rw [at?, List.foldlM_cons, step]
        exact leads
      · cases here
        exact ⟨[], (List.append_nil _).symm, rfl⟩
    · rintro ⟨steps, rfl, leads⟩
      -- the first step leads to a value inside, and the others to a place of that
      cases steps with
      | nil =>
        cases leads
        exact .inr (by rw [List.append_nil])
      | cons segment steps =>
        rw [at?, List.foldlM_cons] at leads
        obtain ⟨u, step, leads⟩ := Option.bind_eq_some_iff.1 leads
        have inside := (child?_eq_some distinct).1 step
        refine .inl ⟨(segment, u), inside, ?_⟩
        exact (ih (segment, u) inside (keysDistinct_of_inside distinct inside)).2 ⟨steps, by simp, leads⟩

theorem keysDistinct_of_place {v w : Value} (distinct : v.keysDistinct) {path place : Path}
    (member : (place, w) ∈ v.places path) : w.keysDistinct := by
  induction v using inside_induction generalizing path with
  | node v ih =>
    rw [places_eq, List.mem_append, List.mem_flatMap, List.mem_singleton] at member
    rcases member with ⟨c, inside, below⟩ | here
    · exact ih c inside (keysDistinct_of_inside distinct inside) below
    · cases here
      exact distinct

theorem nodup_places {v : Value} (distinct : v.keysDistinct) (path : Path) :
    ((v.places path).map (·.1)).Nodup := by
  induction v using inside_induction generalizing path with
  | node v ih =>
    have below {c : Segment × Value} (inside : c ∈ v.inside) {place : Path}
        (member : place ∈ (c.2.places (path ++ [c.1])).map (·.1)) : ∃ steps, place = path ++ c.1 :: steps := by
      obtain ⟨⟨_, w⟩, among, rfl⟩ := List.mem_map.1 member
      obtain ⟨steps, same, _⟩ := (mem_places (keysDistinct_of_inside distinct inside)).1 among
      exact ⟨steps, by rw [same, List.append_assoc, List.singleton_append]⟩
    rw [places_eq, List.map_append, List.map_flatMap, List.nodup_append']
    refine ⟨List.nodup_flatMap.2 ⟨?_, ?_⟩, List.nodup_singleton path, List.disjoint_singleton.2 ?_⟩
    · exact fun c inside => ih c inside (keysDistinct_of_inside distinct inside) _
    · -- places inside two values differ in the segments that lead to these
      refine (List.pairwise_map.1 (nodup_segments distinct)).imp_of_mem fun first second differ => ?_
      intro place inFirst inSecond
      obtain ⟨steps, rfl⟩ := below first inFirst
      obtain ⟨steps', same⟩ := below second inSecond
      exact differ (List.cons.inj (List.append_cancel_left same)).1
    · intro member
      obtain ⟨c, inside, here⟩ := List.mem_flatMap.1 member
      obtain ⟨steps, same⟩ := below inside here
      exact absurd (List.self_eq_append_right.1 same) (List.cons_ne_nil _ _)

end JsonShape.Json.Value
