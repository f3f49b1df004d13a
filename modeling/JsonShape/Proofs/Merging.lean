import JsonShape.Proofs.StructuralEquality
import JsonShape.Shape.Record
import Mathlib.Data.List.Induction

/-! What merging keeps.

A merge takes its unions apart, keeps the first shape of every class and prefers the known ones. Each
step is described by what its result holds, so that nothing later depends on how the lists are built.
-/

set_option autoImplicit false

namespace JsonShape

namespace Shape

/-! ## Leaves -/

mutual

def leaves : Shape → List Shape
  | .union variants => leavesAll variants
  | s => [s]

def leavesAll : List Shape → List Shape
  | [] => []
  | s :: rest => leaves s ++ leavesAll rest

end

theorem leavesAll_eq (shapes : List Shape) : leavesAll shapes = shapes.flatMap leaves := by
  induction shapes with
  | nil => rfl
  | cons s rest ih => rw [leavesAll, ih, List.flatMap_cons]

theorem leaves_union (variants : List Shape) : leaves (.union variants) = variants.flatMap leaves := by
  rw [leaves, leavesAll_eq]

theorem leaves_of_not_union {s : Shape} (single : s.isUnion = false) : s.leaves = [s] := by
  cases s with
  | union variants => cases single
  | _ => rfl

theorem flattenInto_eq (found pending : List Shape) :
    flattenInto found pending = (pending.flatMap leaves).reverse ++ found := by
  fun_induction flattenInto found pending with
  | case1 => rfl
  | case2 found variants rest ih => rw [ih, List.flatMap_append, List.flatMap_cons, leaves_union]
  | case3 found s rest notUnion ih =>
    have single : s.isUnion = false := by
      cases s with
      | union variants => exact absurd rfl (notUnion variants)
      | _ => rfl
    rw [ih, List.flatMap_cons, leaves_of_not_union single]
    simp

theorem flatMap_leaves_of_single {shapes : List Shape} (single : ∀ s ∈ shapes, s.isUnion = false) :
    shapes.flatMap leaves = shapes := by
  rw [List.flatMap_congr fun s member => leaves_of_not_union (single s member)]
  exact List.flatMap_singleton' shapes

theorem flatten_eq (shapes : List Shape) : flatten shapes = shapes.flatMap leaves := by
  rw [flatten, flattenInto_eq, List.append_nil, List.reverse_reverse]

theorem mem_flatten {shapes : List Shape} {t : Shape} :
    t ∈ flatten shapes ↔ ∃ s ∈ shapes, t ∈ s.leaves := by
  rw [flatten_eq, List.mem_flatMap]

/-! ## One shape of each class -/

theorem keep_sublist (kept rest : List Shape) (s : Shape) :
    ((keep kept s).reverse ++ rest).Sublist (kept.reverse ++ s :: rest) := by
  rw [keep]
  split
  · exact (List.sublist_cons_self s rest).append_left kept.reverse
  · rw [List.reverse_cons, List.append_assoc, List.singleton_append]

theorem foldl_keep_sublist (kept shapes : List Shape) :
    ((shapes.foldl keep kept).reverse).Sublist (kept.reverse ++ shapes) := by
  induction shapes generalizing kept with
  | nil => rw [List.foldl_nil, List.append_nil]
  | cons s rest ih => exact (ih (keep kept s)).trans (keep_sublist kept rest s)

theorem distinct_sublist (shapes : List Shape) : (distinct shapes).Sublist shapes := by
  have kept := foldl_keep_sublist [] shapes
  rwa [List.reverse_nil, List.nil_append] at kept

theorem mem_keep_of_mem {kept : List Shape} {r : Shape} (s : Shape) (member : r ∈ kept) :
    r ∈ keep kept s := by
  rw [keep]
  split
  · exact member
  · exact List.mem_cons_of_mem s member

theorem mem_foldl_keep_of_mem {kept : List Shape} {r : Shape} (shapes : List Shape)
    (member : r ∈ kept) : r ∈ shapes.foldl keep kept := by
  induction shapes generalizing kept with
  | nil => exact member
  | cons s rest ih => exact ih (mem_keep_of_mem s member)

theorem exists_mem_keep (kept : List Shape) (s : Shape) : ∃ r ∈ keep kept s, r = s ∨ same r s := by
  rw [keep]
  split
  · next known =>
    obtain ⟨r, member, equal⟩ := List.any_eq_true.1 known
    exact ⟨r, member, .inr equal⟩
  · exact ⟨s, List.mem_cons_self, .inl rfl⟩

theorem exists_mem_foldl_keep (kept : List Shape) {shapes : List Shape} {s : Shape}
    (member : s ∈ shapes) :
    ∃ r ∈ shapes.foldl keep kept, r = s ∨ same r s := by
  induction shapes generalizing kept with
  | nil => cases member
  | cons first rest ih =>
    rcases List.mem_cons.1 member with here | later
    · subst here
      obtain ⟨r, found, equal⟩ := exists_mem_keep kept s
      exact ⟨r, mem_foldl_keep_of_mem rest found, equal⟩
    · exact ih (keep kept first) later

/-- A shape that is not kept gives way to an equal one. -/
theorem exists_mem_distinct {shapes : List Shape} {s : Shape} (member : s ∈ shapes) :
    ∃ r ∈ distinct shapes, r = s ∨ same r s := by
  obtain ⟨r, found, equal⟩ := exists_mem_foldl_keep [] member
  exact ⟨r, List.mem_reverse.2 found, equal⟩

theorem distinct_ne_nil {shapes : List Shape} (some : shapes ≠ []) : distinct shapes ≠ [] := by
  obtain ⟨s, member⟩ := List.exists_mem_of_ne_nil shapes some
  obtain ⟨r, found, _⟩ := exists_mem_distinct member
  exact List.ne_nil_of_mem found

theorem distinct_pairwise (shapes : List Shape) :
    (distinct shapes).Pairwise fun earlier later => ¬ same earlier later := by
  -- kept shapes are listed newest first
  have folded (kept : List Shape) (apart : kept.Pairwise fun later earlier => ¬ same earlier later) :
      (shapes.foldl keep kept).Pairwise fun later earlier => ¬ same earlier later := by
    induction shapes generalizing kept with
    | nil => exact apart
    | cons s rest ih =>
      apply ih
      rw [keep]
      split
      · exact apart
      · next unknown =>
        rw [List.any_eq_true] at unknown
        refine List.pairwise_cons.2 ⟨fun r member equal => unknown ⟨r, member, equal⟩, apart⟩
  rw [distinct, List.pairwise_reverse]
  exact folded [] .nil

theorem distinct_concat (shapes : List Shape) (s : Shape) :
    distinct (shapes ++ [s]) =
      if (distinct shapes).any (same · s) then distinct shapes else distinct shapes ++ [s] := by
  rw [distinct, distinct, List.foldl_append, List.foldl_cons, List.foldl_nil, keep, List.any_reverse]
  split
  · rfl
  · rw [List.reverse_cons]

theorem distinct_eq_self {shapes : List Shape}
    (apart : shapes.Pairwise fun earlier later => ¬ same earlier later) : distinct shapes = shapes := by
  induction shapes using List.reverseRecOn with
  | nil => rfl
  | append_singleton shapes s ih =>
    obtain ⟨before, _, last⟩ := List.pairwise_append.1 apart
    rw [distinct_concat, ih before, if_neg]
    intro known
    obtain ⟨r, member, equal⟩ := List.any_eq_true.1 known
    exact last r member s List.mem_cons_self equal

/-- What is said of whole classes may be asked before or after the first of each class is taken. -/
theorem filter_distinct {p : Shape → Bool} (agree : ∀ a b, same a b → p a = p b) (shapes : List Shape) :
    (distinct shapes).filter p = distinct (shapes.filter p) := by
  induction shapes using List.reverseRecOn with
  | nil => rfl
  | append_singleton shapes s ih =>
    rw [distinct_concat, List.filter_append]
    by_cases wanted : p s
    · have known : (distinct (shapes.filter p)).any (same · s) = (distinct shapes).any (same · s) := by
        rw [← ih, List.any_filter, Bool.eq_iff_iff, List.any_eq_true, List.any_eq_true]
        refine exists_congr fun r => and_congr_right fun _ => ?_
        rw [Bool.and_eq_true, and_iff_right_of_imp]
        exact fun equal => (agree r s equal).trans wanted
      rw [List.filter_cons_of_pos wanted, List.filter_nil, distinct_concat, known]
      split
      · exact ih
      · rw [List.filter_append, ih, List.filter_cons_of_pos wanted, List.filter_nil]
    · rw [List.filter_cons_of_neg wanted, List.filter_nil, List.append_nil]
      split
      · exact ih
      · rw [List.filter_append, ih, List.filter_cons_of_neg wanted, List.filter_nil, List.append_nil]

/-- A map that keeps equal shapes equal may be applied before or after. -/
theorem distinct_map_distinct {f : Shape → Shape} {shapes : List Shape}
    (equal : ∀ a ∈ shapes, ∀ b ∈ shapes, same a b → same (f a) (f b)) :
    distinct ((distinct shapes).map f) = distinct (shapes.map f) := by
  induction shapes using List.reverseRecOn with
  | nil => rfl
  | append_singleton shapes s ih =>
    have before := ih fun a first b second =>
      equal a (List.mem_append_left _ first) b (List.mem_append_left _ second)
    rw [distinct_concat, List.map_append, List.map_singleton, distinct_concat]
    split
    -- the image of a shape that was dropped is equal to that of the shape it gave way to
    · next known =>
      obtain ⟨r, kept, same⟩ := List.any_eq_true.1 known
      have among := (distinct_sublist shapes).subset kept
      have image := equal r (List.mem_append_left _ among) s (by simp) same
      obtain ⟨t, found, stands⟩ := exists_mem_distinct (List.mem_map_of_mem (f := f) among)
      rw [before, if_pos]
      refine List.any_eq_true.2 ⟨t, found, ?_⟩
      rcases stands with rfl | stands
      · exact image
      · exact same_trans stands image
    · rw [List.map_append, List.map_singleton, distinct_concat, before]

/-! ## Known shapes -/

theorem preferKnown_sublist (shapes : List Shape) : (preferKnown shapes).Sublist shapes := by
  rw [preferKnown]
  split
  · exact .refl shapes
  · exact List.filter_sublist

theorem mem_preferKnown {shapes : List Shape} {s : Shape} (member : s ∈ shapes)
    (known : s.isUnknown = false) : s ∈ preferKnown shapes := by
  have among : s ∈ shapes.filter (!·.isUnknown) := List.mem_filter.2 ⟨member, by rw [known]; rfl⟩
  rw [preferKnown, if_neg]
  · exact among
  · intro none
    rw [List.isEmpty_iff] at none
    rw [none] at among
    cases among

theorem preferKnown_ne_nil {shapes : List Shape} (some : shapes ≠ []) : preferKnown shapes ≠ [] := by
  rw [preferKnown]
  split
  · exact some
  · next known => rwa [List.isEmpty_iff] at known

theorem all_unknown_of_mem_preferKnown {shapes : List Shape} {s : Shape}
    (member : s ∈ preferKnown shapes) (unknown : s.isUnknown) :
    ∀ t ∈ preferKnown shapes, t.isUnknown := by
  rw [preferKnown] at member ⊢
  split at member
  · next none =>
    rw [if_pos none]
    rw [List.isEmpty_iff, List.filter_eq_nil_iff] at none
    exact fun t among => by simpa using none t among
  · have known := (List.mem_filter.1 member).2
    rw [unknown] at known
    cases known

theorem isUnknown_of_same {a b : Shape} (equal : same a b) : a.isUnknown = b.isUnknown := by
  have agree := childPairs?_isSome_of_same equal
  cases a <;> cases b <;> first | rfl | cases agree

theorem preferKnown_distinct (shapes : List Shape) :
    preferKnown (distinct shapes) = distinct (preferKnown shapes) := by
  have known := filter_distinct (p := (!·.isUnknown))
    (fun _ _ equal => congrArg (!·) (isUnknown_of_same equal)) shapes
  rw [preferKnown, preferKnown, known]
  by_cases none : shapes.filter (!·.isUnknown) = []
  · simp [none, distinct]
  · simp [none, distinct_ne_nil none]

theorem preferKnown_preferKnown (shapes : List Shape) :
    preferKnown (preferKnown shapes) = preferKnown shapes := by
  by_cases none : shapes.filter (!·.isUnknown) = []
  · simp [preferKnown, none]
  · simp [preferKnown, none]

theorem preferKnown_map {f : Shape → Shape} {shapes : List Shape}
    (known : ∀ s ∈ shapes, (f s).isUnknown = s.isUnknown) :
    preferKnown (shapes.map f) = (preferKnown shapes).map f := by
  have filtered : (shapes.map f).filter (!·.isUnknown) = (shapes.filter (!·.isUnknown)).map f := by
    rw [List.filter_map]
    exact congrArg _ (List.filter_congr fun s member => congrArg (!·) (known s member))
  rw [preferKnown, preferKnown, filtered, List.isEmpty_map]
  split <;> rfl

/-! ## The merge -/

def choices (shapes : List Shape) : List Shape := preferKnown (distinct (flatten shapes))

theorem choices_ne_nil {shapes : List Shape} (some : shapes.flatMap leaves ≠ []) :
    choices shapes ≠ [] :=
  preferKnown_ne_nil (distinct_ne_nil (flatten_eq shapes ▸ some))

theorem same_of_unknown {a b : Shape} (first : a.isUnknown) (second : b.isUnknown) : same a b := by
  cases a <;> cases first
  cases b <;> cases second
  exact same_iff.2 ⟨[], rfl, by simp⟩

/-- Of two kept shapes the earlier is not equal to the later. -/
theorem choices_pairwise (shapes : List Shape) :
    (choices shapes).Pairwise fun earlier later => ¬ same earlier later :=
  (distinct_pairwise _).sublist (preferKnown_sublist _)

theorem choices_sublist (shapes : List Shape) : (choices shapes).Sublist (shapes.flatMap leaves) :=
  (preferKnown_sublist _).trans ((distinct_sublist _).trans (flatten_eq shapes ▸ .refl _))

theorem mem_leaves_of_mem_choices {shapes : List Shape} {t : Shape} (member : t ∈ choices shapes) :
    ∃ s ∈ shapes, t ∈ s.leaves :=
  List.mem_flatMap.1 ((choices_sublist shapes).subset member)

theorem merge_cons (s : Shape) (rest : List Shape) :
    merge (s :: rest) = ofVariants (choices (s :: rest)) := rfl

theorem merge_of_mem {shapes : List Shape} {s : Shape} (member : s ∈ shapes) :
    merge shapes = ofVariants (choices shapes) := by
  cases shapes with
  | nil => cases member
  | cons first rest => rfl

/-- A single shape that is no union is its own merge. -/
theorem merge_singleton {s : Shape} (single : s.isUnion = false) : merge [s] = s := by
  have alone : distinct [s] = [s] := rfl
  have known : preferKnown [s] = [s] := by
    cases s <;> rfl
  rw [merge_cons, choices, flatten_eq, List.flatMap_cons, leaves_of_not_union single,
    List.flatMap_nil, List.append_nil, alone, known, ofVariants]

end Shape

/-! ## Merging objects -/

namespace Record

/-- What is known about a key from the objects that have it. -/
def seen (records : List Record) (key : Text) : List (Property Shape) :=
  records.filterMap (find? ·.properties key)

theorem mem_seen {records : List Record} {key : Text} {p : Property Shape} :
    p ∈ seen records key ↔ ∃ r ∈ records, find? r.properties key = some p := by
  rw [seen, List.mem_filterMap]

theorem nodup_eraseDups (keys : List Text) : keys.eraseDups.Nodup := by
  match keys with
  | [] => exact List.nodup_nil
  | key :: rest =>
    rw [List.eraseDups_cons, List.nodup_cons]
    refine ⟨?_, nodup_eraseDups _⟩
    simp [List.mem_eraseDups]
termination_by keys.length
decreasing_by exact Nat.lt_succ_of_le (List.length_filter_le _ rest)

theorem merge_single (r : Record) (name : Text) : merge [r] name = ⟨name, r.properties⟩ := rfl

theorem merge_several (first second : Record) (rest : List Record) (name : Text) :
    merge (first :: second :: rest) name =
      ⟨name, ((first :: second :: rest).flatMap keys).eraseDups.map
        (mergedProperty (first :: second :: rest))⟩ := rfl

theorem mergedProperty_eq (records : List Record) (key : Text) :
    mergedProperty records key =
      { key
        shape := (Shape.merge ((seen records key).map (·.shape))).splitNull.1
        optional := decide ((seen records key).length < records.length)
        nullable := (Shape.merge ((seen records key).map (·.shape))).splitNull.2 ||
          (seen records key).any (·.nullable) } := rfl

theorem mergedProperty_key (records : List Record) (key : Text) :
    (mergedProperty records key).key = key := rfl

theorem map_key_mergedProperty (records : List Record) (keys : List Text) :
    (keys.map (mergedProperty records)).map (·.key) = keys := by
  rw [List.map_map]
  exact List.map_id' keys

theorem find?_map_mergedProperty (records : List Record) (keys : List Text) (key : Text) :
    find? (keys.map (mergedProperty records)) key =
      if key ∈ keys then some (mergedProperty records key) else none := by
  induction keys with
  | nil => rfl
  | cons first rest ih =>
    rw [List.map_cons, find?, List.find?_cons]
    by_cases here : first = key
    · subst here
      simp [mergedProperty_key]
    · rw [find?] at ih
      simp [mergedProperty_key, here, Ne.symm here, ih]

theorem eq_mergedProperty {records : List Record} {keys : List Text} {key : Text} {q : Property Shape}
    (found : find? (keys.map (mergedProperty records)) key = some q) :
    q = mergedProperty records key := by
  rw [find?_map_mergedProperty] at found
  split at found
  · exact (Option.some.inj found).symm
  · cases found

end Record

end JsonShape
