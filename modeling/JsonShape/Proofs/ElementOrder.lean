import JsonShape.Proofs.Acceptance
import JsonShape.Proofs.Akin
import JsonShape.Proofs.Undated
import Mathlib.Data.List.Pairwise

/-! The order of elements.

When the elements of arrays are listed in another order, shapes are merged in another order. Unions then
list their variants differently, and so shapes that were equal may no longer be: one variant becomes two
that are akin, or two become one. Flags are the only thing that can be lost, since of equal shapes the first
is kept with its own flags.
-/

set_option autoImplicit false

namespace JsonShape

open Json (Value Member)

/-! ## Lists in another order -/

def Rearranged {α β : Type} (R : α → β → Prop) (as : List α) (bs : List β) : Prop :=
  ∃ between, as.Perm between ∧ List.Forall₂ R between bs

namespace Rearranged

variable {α β γ δ : Type} {R : α → β → Prop} {S : γ → δ → Prop} {as : List α} {bs : List β}

theorem length_eq (rearranged : Rearranged R as bs) : as.length = bs.length := by
  obtain ⟨between, perm, each⟩ := rearranged
  exact perm.length_eq.trans each.length_eq

theorem covering (rearranged : Rearranged R as bs) : Covering R as bs := by
  obtain ⟨between, perm, each⟩ := rearranged
  constructor
  · intro a member
    exact (Covering.of_forall₂ each).left a (perm.mem_iff.1 member)
  · intro b member
    obtain ⟨a, among, related⟩ := exists_partner each member
    exact ⟨a, perm.mem_iff.2 among, related⟩

theorem any_eq {p : α → Bool} {q : β → Bool} (rearranged : Rearranged R as bs)
    (agree : ∀ a b, R a b → p a = q b) : as.any p = bs.any q := by
  obtain ⟨between, perm, each⟩ := rearranged
  exact perm.any_eq.trans (any_congr agree each)

theorem map {f : α → γ} {g : β → δ} (rearranged : Rearranged R as bs)
    (image : ∀ a b, R a b → S (f a) (g b)) : Rearranged S (as.map f) (bs.map g) := by
  obtain ⟨between, perm, each⟩ := rearranged
  exact ⟨between.map f, perm.map f, List.rel_map image each⟩

theorem filter {p : α → Bool} {q : β → Bool} (rearranged : Rearranged R as bs)
    (agree : ∀ a b, R a b → p a = q b) : Rearranged R (as.filter p) (bs.filter q) := by
  obtain ⟨between, perm, each⟩ := rearranged
  refine ⟨between.filter p, perm.filter p, List.rel_filter (fun a b related => ?_) each⟩
  exact Bool.eq_iff_iff.1 (agree a b related)

theorem filterMap {f : α → Option γ} {g : β → Option δ} (rearranged : Rearranged R as bs)
    (found : ∀ a b, R a b → Option.Rel S (f a) (g b)) : Rearranged S (as.filterMap f) (bs.filterMap g) := by
  obtain ⟨between, perm, each⟩ := rearranged
  exact ⟨between.filterMap f, perm.filterMap f, List.rel_filterMap found each⟩

end Rearranged

/-! ## Merging -/

namespace Shape

/-- Shapes in the list that are akin but for their flags have the same flags as well. -/
def AgreeOnFlags (shapes : List Shape) : Prop :=
  ∀ a ∈ shapes, ∀ b ∈ shapes, a.Akin false b → a.Akin true b

theorem AgreeOnFlags.of_covering {shapes others : List Shape} (agree : AgreeOnFlags shapes)
    (covering : Covering (Akin true) shapes others) : AgreeOnFlags others := by
  intro a first b second akin
  obtain ⟨s, among, here⟩ := covering.right a first
  obtain ⟨t, among', there⟩ := covering.right b second
  have between := agree s among t among' ((here.forget.trans akin).trans there.symm.forget)
  exact (here.symm.trans between).trans there

theorem agreeOnFlags_of_pairwise {shapes : List Shape} (distinct : ∀ s ∈ shapes, s.keysDistinct)
    (agree : shapes.Pairwise fun a b => a.Akin false b → a.Akin true b) : AgreeOnFlags shapes := by
  have symmetric : Std.Symm fun a b : Shape => a.Akin false b → a.Akin true b :=
    ⟨fun a b akin turned => (akin turned.symm).symm⟩
  intro a first b second
  apply agree.forall_of_forall _ first second
  exact fun s member _ => .refl (distinct s member)

theorem leaves_ofVariants {variants : List Shape} (single : ∀ s ∈ variants, s.isUnion = false) :
    (ofVariants variants).leaves = variants := by
  match variants with
  | [] => rfl
  | [only] => exact leaves_of_not_union (single only (List.mem_singleton_self only))
  | first :: second :: rest =>
    change leaves (.union (first :: second :: rest)) = _
    rw [leaves_union, flatMap_leaves_of_single single]

variable {flags : Bool} {shapes others : List Shape}

/-- For every known shape merging keeps one that is akin to it. -/
theorem merge_covers (sampled : ∀ s ∈ shapes, s.Sampled) (told : flags → AgreeOnFlags shapes)
    (some : shapes ≠ []) : Covering (Akin flags) (merge shapes).leaves (preferKnown shapes) := by
  have single : ∀ s ∈ shapes, s.isUnion = false := fun s member => (sampled s member).single
  have kept : (merge shapes).leaves = distinct (preferKnown shapes) := by
    obtain ⟨s, member⟩ := List.exists_mem_of_ne_nil shapes some
    have among := (choices_sublist_of_single single).subset
    rw [merge_of_mem member, leaves_ofVariants fun t chosen => single t (among chosen),
      choices_of_single single]
  have among := (preferKnown_sublist shapes).subset
  -- a shape gives way to an equal one, whose flags are its own
  have stands {r s : Shape} (first : r ∈ preferKnown shapes) (second : s ∈ preferKnown shapes)
      (equal : r = s ∨ same r s) : r.Akin flags s := by
    have known := (sampled r (among first)).distinct
    have known' := (sampled s (among second)).distinct
    have akin : r.Akin false s := by
      refine .of_equal ⟨known, known', ?_⟩
      rcases equal with rfl | equal
      · exact same_refl known
      · exact equal
    cases flags with
    | false => exact akin
    | true => exact told rfl r (among first) s (among second) akin
  rw [kept]
  constructor
  · intro r member
    have first := (distinct_sublist (preferKnown shapes)).subset member
    exact ⟨r, first, stands first first (.inl rfl)⟩
  · intro s member
    obtain ⟨r, found, equal⟩ := exists_mem_distinct member
    exact ⟨r, found, stands ((distinct_sublist (preferKnown shapes)).subset found) member equal⟩

theorem preferKnown_covering (sampled : ∀ s ∈ shapes, s.Sampled) (sampled' : ∀ s ∈ others, s.Sampled)
    (covering : Covering (Akin flags) shapes others) :
    Covering (Akin flags) (preferKnown shapes) (preferKnown others) := by
  have known : Covering (Akin flags) (shapes.filter (!·.isUnknown)) (others.filter (!·.isUnknown)) := by
    refine covering.filter fun a first b second akin => congrArg (!·) ?_
    exact (akin.agree (sampled a first).single (sampled' b second).single).isUnknown
  simp only [preferKnown, List.isEmpty_iff, known.eq_nil_iff]
  split
  · exact covering
  · exact known

/-- Merges of the same shapes up to order are akin. -/
theorem Akin.merge (sampled : ∀ s ∈ shapes, s.Sampled) (sampled' : ∀ s ∈ others, s.Sampled)
    (told : flags → AgreeOnFlags shapes) (covering : Covering (Akin flags) shapes others) :
    (merge shapes).Akin flags (merge others) := by
  by_cases none : shapes = []
  · rw [none, covering.eq_nil_iff.1 none]
    exact .node .unknown
  · have told' : flags → AgreeOnFlags others := by
      rintro rfl
      exact (told rfl).of_covering covering
    -- the two merges cover the known shapes on their sides, and these cover each other
    have before := merge_covers sampled told none
    have between := preferKnown_covering sampled sampled' covering
    have after := merge_covers sampled' told' (covering.eq_nil_iff.not.1 none)
    apply iff_leaves.2
    refine ((before.trans between).trans after.symm).imp ?_
    rintro s _ t _ ⟨u, ⟨r, first, second⟩, third⟩
    exact (first.trans second).trans third.symm

end Shape

/-! ## Merging objects -/

structure Property.Akin (flags : Bool) (p q : Property Shape) : Prop where
  key : p.key = q.key
  told : flags → p.optional = q.optional ∧ p.nullable = q.nullable
  shape : p.shape.Akin flags q.shape

structure Record.Akin (flags : Bool) (r t : Record) : Prop where
  keys : r.keys.Perm t.keys
  each : ∀ p ∈ r.properties, ∀ q ∈ t.properties, p.key = q.key → p.Akin flags q

theorem Record.Akin.toShape {flags : Bool} {r t : Record} (akin : r.Akin flags t) :
    Shape.NodesAgree flags (Shape.Akin flags) r.toShape t.toShape := by
  refine .object akin.keys (fun asked p first q second same => ?_) fun p first q second same => ?_
  · exact (akin.each p first q second same).told asked
  · exact (akin.each p first q second same).shape

theorem Shape.NodesAgree.record? {flags : Bool} {a b : Shape}
    (agree : NodesAgree flags (Shape.Akin flags) a b) :
    Option.Rel (Record.Akin flags) a.record? b.record? := by
  cases agree with
  | object keys told shapes =>
    refine .some ⟨keys, fun p first q second same => ?_⟩
    exact ⟨same, fun asked => told asked p first q second same, shapes p first q second same⟩
  | _ => exact .none

namespace Record

theorem merge_of_several {records : List Record} (several : 2 ≤ records.length) (name : Text) :
    merge records name = ⟨name, (records.flatMap keys).eraseDups.map (mergedProperty records)⟩ := by
  match records with
  | [] => cases several
  | [only] => exact absurd several (by simp)
  | first :: second :: rest => rfl

section

variable {flags : Bool} {records others : List Record}
  (sampled : ∀ r ∈ records, ∀ p ∈ r.properties, p.Sampled)
  (sampled' : ∀ r ∈ others, ∀ p ∈ r.properties, p.Sampled)
  (told : flags → ∀ key, Shape.AgreeOnFlags ((seen records key).map (·.shape)))
  (rearranged : Rearranged (Record.Akin flags) records others)

include sampled sampled' told rearranged

theorem mergedProperty_akin (key : Text) :
    (mergedProperty records key).Akin flags (mergedProperty others key) := by
  have seen : Rearranged (Property.Akin flags) (seen records key) (seen others key) :=
    rearranged.filterMap fun r t akin => find?_related akin.keys akin.each key
  have known := fun p member => @seen_sampled records sampled key p member
  have known' := fun p member => @seen_sampled others sampled' key p member
  have merged : (Shape.merge ((Record.seen records key).map (·.shape))).Akin flags
      (Shape.merge ((Record.seen others key).map (·.shape))) := by
    apply Shape.Akin.merge
    · exact List.forall_mem_map.2 fun p member => (known p member).shape
    · exact List.forall_mem_map.2 fun p member => (known' p member).shape
    · exact fun asked => told asked key
    · exact (seen.map fun p q akin => akin.shape).covering
  have split {properties : List (Property Shape)} (sampled : ∀ p ∈ properties, p.Sampled) :=
    Shape.splitNull_merge (List.forall_mem_map.2 fun p member => (sampled p member).shape.single)
      (List.forall_mem_map.2 fun p member => (sampled p member).notNull)
  rw [mergedProperty_eq, mergedProperty_eq, split known, split known']
  refine ⟨rfl, fun asked => ⟨?_, ?_⟩, merged⟩
  · simp only [seen.length_eq, rearranged.length_eq]
  · have nullable := seen.any_eq fun p q akin => (akin.told asked).2
    simp only [nullable]

theorem merge_akin (name other : Text) : (merge records name).Akin flags (merge others other) := by
  have keys : (records.flatMap Record.keys).eraseDups.Perm (others.flatMap Record.keys).eraseDups := by
    refine (List.perm_ext_iff_of_nodup (nodup_eraseDups _) (nodup_eraseDups _)).2 fun key => ?_
    rw [List.mem_eraseDups, List.mem_eraseDups, List.mem_flatMap, List.mem_flatMap]
    have covering := rearranged.covering
    constructor
    · rintro ⟨r, member, listed⟩
      obtain ⟨t, found, akin⟩ := covering.left r member
      exact ⟨t, found, akin.keys.mem_iff.1 listed⟩
    · rintro ⟨t, member, listed⟩
      obtain ⟨r, found, akin⟩ := covering.right t member
      exact ⟨r, found, akin.keys.mem_iff.2 listed⟩
  have each := mergedProperty_akin sampled sampled' told rearranged
  -- a single object is renamed and not merged with itself
  by_cases several : 2 ≤ records.length
  · rw [merge_of_several several, merge_of_several (rearranged.length_eq ▸ several)]
    refine ⟨?_, fun p first q second same => ?_⟩
    · rwa [Record.keys, Record.keys, map_key_mergedProperty, map_key_mergedProperty]
    · obtain ⟨key, _, rfl⟩ := List.mem_map.1 first
      obtain ⟨key', _, rfl⟩ := List.mem_map.1 second
      rw [mergedProperty_key, mergedProperty_key] at same
      exact same ▸ each key
  · obtain ⟨between, perm, related⟩ := rearranged
    rw [perm.length_eq] at several
    cases related with
    | nil =>
      rw [perm.eq_nil]
      exact ⟨.refl [], fun p none => absurd none List.not_mem_nil⟩
    | cons here later =>
      cases later with
      | nil =>
        rw [List.perm_singleton.1 perm]
        exact ⟨here.keys, here.each⟩
      | cons _ _ => exact absurd (Nat.le_add_left 2 _) several

end

end Record

/-! ## Shuffled values -/

namespace Json.Value

/-- The elements of any arrays in the value are listed in another order. Members stay where they are. -/
inductive Shuffles : Value → Value → Prop where
  | leaf {v : Value} (bare : v.isContainer = false) : Shuffles v v
  | array {elements between others : List Value} (shuffled : elements.Perm between)
      (each : List.Forall₂ Shuffles between others) : Shuffles (.array elements) (.array others)
  | object {members others : List Member} (keys : members.map (·.1) = others.map (·.1))
      (each : List.Forall₂ Shuffles (members.map (·.2)) (others.map (·.2))) :
      Shuffles (.object members) (.object others)

theorem Shuffles.refl (v : Value) : v.Shuffles v := by
  induction v with
  | array elements ih => exact .array (.refl elements) (List.forall₂_same.2 ih)
  | object members ih => exact .object rfl (List.forall₂_same.2 (List.forall_mem_map.2 ih))
  | _ => exact .leaf rfl

theorem Shuffles.induct {motive : Value → Value → Prop}
    (leaf : ∀ v, v.isContainer = false → motive v v)
    (array : ∀ elements between others, elements.Perm between →
      List.Forall₂ (fun v w => v.Shuffles w ∧ motive v w) between others →
      motive (.array elements) (.array others))
    (object : ∀ members others, List.Forall₂ (fun m n => m.1 = n.1 ∧ motive m.2 n.2) members others →
      motive (.object members) (.object others))
    {v w : Value} (shuffled : v.Shuffles w) : motive v w := by
  induction v generalizing w with
  | array elements ih =>
    cases shuffled with
    | leaf bare => cases bare
    | @array _ between others shuffled each =>
      have known : ∀ v ∈ between, ∀ w, v.Shuffles w → motive v w :=
        fun v among w => ih v (shuffled.mem_iff.2 among)
      have inner := (List.forall₂_and_left _ _).2 ⟨known, each⟩
      exact array elements between others shuffled (inner.imp fun _ w both => ⟨both.2, both.1 w both.2⟩)
  | object members ih =>
    cases shuffled with
    | leaf bare => cases bare
    | object keys each =>
      have known : ∀ m ∈ members, ∀ w, m.2.Shuffles w → motive m.2 w := fun m among w => ih m among
      have inner := (List.forall₂_and_left _ _).2 ⟨known, forall₂_members keys each⟩
      exact object members _ (inner.imp fun _ n both => both.2.imp_right (both.1 n.2))
  | _ =>
    cases shuffled with
    | leaf bare => exact leaf _ bare

theorem Shuffles.keysDistinct {v w : Value} (shuffled : v.Shuffles w) (distinct : v.keysDistinct) :
    w.keysDistinct := by
  revert distinct
  refine shuffled.induct (motive := fun v w => v.keysDistinct → w.keysDistinct) ?leaf ?array ?object
  case leaf => exact fun v bare distinct => distinct
  case array =>
    intro elements between others shuffled each distinct
    refine keysDistinct_array.2 fun w member => ?_
    obtain ⟨v, among, _, inner⟩ := exists_partner each member
    exact inner (keysDistinct_array.1 distinct v (shuffled.mem_iff.2 among))
  case object =>
    intro members others each distinct
    obtain ⟨once, values⟩ := keysDistinct_object.1 distinct
    have keys : members.map (·.1) = others.map (·.1) :=
      List.forall₂_eq_eq_eq ▸ List.rel_map (fun _ _ both => both.1) each
    refine keysDistinct_object.2 ⟨keys ▸ once, fun n member => ?_⟩
    obtain ⟨m, among, _, inner⟩ := exists_partner each member
    exact inner (values m among)

end Json.Value

namespace Inference

open Shape (AgreeOnFlags NodesAgree)

/-! ## Merged samples -/

structure MergedAgree (shapes : List Shape) : Prop where
  elements : AgreeOnFlags (elementShapes shapes)
  properties : ∀ key, AgreeOnFlags ((Record.seen (shapes.filterMap Shape.record?) key).map (·.shape))

/-- Wherever shapes of the sample are merged, those that are akin but for their flags have the same flags
as well. -/
inductive FlagsAgree (dates : Bool) : Value → Prop where
  | leaf {v : Value} (bare : v.isContainer = false) : FlagsAgree dates v
  | array {elements : List Value} (merged : MergedAgree (elements.map (outline dates)))
      (each : ∀ v ∈ elements, FlagsAgree dates v) : FlagsAgree dates (.array elements)
  | object {members : List Member} (each : ∀ m ∈ members, FlagsAgree dates m.2) :
      FlagsAgree dates (.object members)

namespace FlagsAgree

theorem of_array {dates : Bool} {elements : List Value} (told : FlagsAgree dates (.array elements)) :
    MergedAgree (elements.map (outline dates)) ∧ ∀ v ∈ elements, FlagsAgree dates v := by
  cases told with
  | leaf bare => cases bare
  | array merged each => exact ⟨merged, each⟩

theorem of_object {dates : Bool} {members : List Member} (told : FlagsAgree dates (.object members)) :
    ∀ m ∈ members, FlagsAgree dates m.2 := by
  cases told with
  | leaf bare => cases bare
  | object each => exact each

end FlagsAgree

theorem elementShapes_sampled {shapes : List Shape} (sampled : ∀ s ∈ shapes, s.Sampled) :
    ∀ s ∈ elementShapes shapes, s.Sampled := by
  intro s member
  rcases mem_elementShapes member with ⟨among, _⟩ | rfl
  · exact sampled s among
  · refine ⟨rfl, Record.merge_keysDistinct (fun r found => ?_) []⟩
    obtain ⟨s, among, object⟩ := List.mem_filterMap.1 found
    exact Shape.record?_eq_some.1 object ▸ (sampled s among).distinct

section

variable {dates flags : Bool}

theorem outline_sampled {v : Value} (distinct : v.keysDistinct) : (outline dates v).Sampled :=
  ⟨isUnion_outline dates v, outline_keysDistinct distinct⟩

theorem outline_record_sampled {elements : List Value} (distinct : ∀ v ∈ elements, v.keysDistinct) :
    ∀ r ∈ (elements.map (outline dates)).filterMap Shape.record?, ∀ p ∈ r.properties, p.Sampled := by
  intro r member p inside
  have plain := outline_record_plain (fun v _ => outline_normalAt dates v) r member p inside
  obtain ⟨s, listed, found⟩ := List.mem_filterMap.1 member
  obtain ⟨v, among, rfl⟩ := List.mem_map.1 listed
  have once := @outline_keysDistinct dates v (distinct v among)
  rw [Shape.record?_eq_some.1 found] at once
  exact ⟨⟨plain.single, (Shape.keysDistinct_object.1 once).2 p inside⟩, plain.notNull⟩

theorem elementShapes_covering {shapes others : List Shape}
    (rearranged : Rearranged (NodesAgree flags (Shape.Akin flags)) shapes others)
    (merged : (Record.merge (shapes.filterMap Shape.record?) []).Akin flags
      (Record.merge (others.filterMap Shape.record?) [])) :
    Covering (Shape.Akin flags) (elementShapes shapes) (elementShapes others) := by
  have plain := (rearranged.filter fun s t agree => congrArg (!·) agree.isObject).covering
  have records := rearranged.filterMap fun s t agree => agree.record?
  apply Covering.append
  · exact plain.imp fun s _ t _ agree => .node agree
  -- there is a merged object on both sides or on neither
  · have empty := records.covering.eq_nil_iff
    generalize shapes.filterMap Shape.record? = found, others.filterMap Shape.record? = found' at *
    cases found with
    | nil =>
      rw [empty.1 rfl]
      exact ⟨nofun, nofun⟩
    | cons r rest =>
      cases found' with
      | nil => cases empty.2 rfl
      | cons t others => exact .of_forall₂ (.cons (.node merged.toShape) .nil)

/-! ## The outline -/

theorem outline_array_akin {elements others : List Value} (distinct : ∀ v ∈ elements, v.keysDistinct)
    (distinct' : ∀ v ∈ others, v.keysDistinct)
    (told : flags → MergedAgree (elements.map (outline dates)))
    (rearranged : Rearranged (NodesAgree flags (Shape.Akin flags)) (elements.map (outline dates))
      (others.map (outline dates))) :
    NodesAgree flags (Shape.Akin flags) (outline dates (.array elements))
      (outline dates (.array others)) := by
  have merged := Record.merge_akin (outline_record_sampled distinct) (outline_record_sampled distinct')
    (fun asked => (told asked).properties) (rearranged.filterMap fun _ _ agree => agree.record?) [] []
  rw [outline_array, outline_array]
  apply NodesAgree.array
  apply Shape.Akin.merge
  · exact elementShapes_sampled (List.forall_mem_map.2 fun v among => outline_sampled (distinct v among))
  · exact elementShapes_sampled (List.forall_mem_map.2 fun v among => outline_sampled (distinct' v among))
  · exact fun asked => (told asked).elements
  · exact elementShapes_covering rearranged merged

theorem propertyOf_akin (key : Text) {a b : Shape} (agree : NodesAgree flags (Shape.Akin flags) a b) :
    (propertyOf key a).Akin flags (propertyOf key b) := by
  rw [propertyOf, propertyOf, agree.isNull]
  split
  · exact ⟨rfl, fun _ => ⟨rfl, rfl⟩, .node .unknown⟩
  · exact ⟨rfl, fun _ => ⟨rfl, rfl⟩, .node agree⟩

theorem outline_object_akin {members others : List Member} (once : (members.map (·.1)).Nodup)
    (each : List.Forall₂ (fun m n => m.1 = n.1 ∧
      NodesAgree flags (Shape.Akin flags) (outline dates m.2) (outline dates n.2)) members others) :
    NodesAgree flags (Shape.Akin flags) (outline dates (.object members))
      (outline dates (.object others)) := by
  have keys : members.map (·.1) = others.map (·.1) :=
    List.forall₂_eq_eq_eq ▸ List.rel_map (fun _ _ both => both.1) each
  rw [outline_object, outline_object]
  refine Record.Akin.toShape (r := ⟨[], _⟩) (t := ⟨[], _⟩) ⟨?_, fun p first q second same => ?_⟩
  · rw [Record.keys, Record.keys, map_key_propertyOf, map_key_propertyOf, keys]
  · obtain ⟨m, among, rfl⟩ := List.mem_map.1 first
    obtain ⟨n, among', rfl⟩ := List.mem_map.1 second
    rw [propertyOf_key, propertyOf_key] at same
    rw [same]
    exact propertyOf_akin n.1 (Value.related_of_key once each among among' same)

theorem outline_shuffled {v w : Value} (shuffled : v.Shuffles w) (distinct : v.keysDistinct)
    (told : flags → FlagsAgree dates v) :
    NodesAgree flags (Shape.Akin flags) (outline dates v) (outline dates w) := by
  -- what is known of the whole sample passes to what is inside, so the induction carries it
  revert distinct told
  refine shuffled.induct (motive := fun v w => v.keysDistinct → (flags → FlagsAgree dates v) →
    NodesAgree flags (Shape.Akin flags) (outline dates v) (outline dates w)) ?leaf ?array ?object
  case leaf =>
    intro v bare _ _
    cases v with
    | string s => rw [outline]; split <;> constructor
    | array elements => cases bare
    | object members => cases bare
    | _ => constructor
  case array =>
    intro elements between others shuffled each distinct told
    have distinct' := (Value.Shuffles.array shuffled (each.imp fun _ _ => And.left)).keysDistinct distinct
    rw [Value.keysDistinct_array] at distinct distinct'
    have inner : ∀ v ∈ between, v.keysDistinct ∧ (flags → FlagsAgree dates v) := by
      intro v placed
      have among := shuffled.mem_iff.2 placed
      exact ⟨distinct v among, fun asked => (told asked).of_array.2 v among⟩
    have known := (List.forall₂_and_left _ _).2 ⟨inner, each⟩
    apply outline_array_akin distinct distinct' fun asked => (told asked).of_array.1
    apply Rearranged.map ⟨between, shuffled, known⟩
    exact fun v w both => both.2.2 both.1.1 both.1.2
  case object =>
    intro members others each distinct told
    obtain ⟨once, values⟩ := Value.keysDistinct_object.1 distinct
    have inner : ∀ m ∈ members, m.2.keysDistinct ∧ (flags → FlagsAgree dates m.2) :=
      fun m among => ⟨values m among, fun asked => (told asked).of_object m among⟩
    have known := (List.forall₂_and_left _ _).2 ⟨inner, each⟩
    exact outline_object_akin once
      (known.imp fun _ _ both => both.2.imp_right fun agree => agree both.1.1 both.1.2)

end

/-- The order of elements does not matter to inference, up to names and order, if variants that are akin
count once and flags are left out. Flags do not matter either where merged shapes agree on them. -/
theorem infer_shuffled (o : Options) {v w : Value} (distinct : v.keysDistinct) (shuffled : v.Shuffles w) :
    (infer o v).shape.Akin false (infer o w).shape ∧
      (FlagsAgree o.detectsDates v → (infer o v).shape.Akin true (infer o w).shape) := by
  have akin (flags : Bool) (told : flags → FlagsAgree o.detectsDates v) :
      (infer o v).shape.Akin flags (infer o w).shape := by
    rw [← Shape.Akin.unnamed_iff, infer_unnamed, infer_unnamed]
    exact .node (outline_shuffled shuffled distinct told)
  exact ⟨akin false nofun, fun told => akin true fun _ => told⟩

def listRows : List Value :=
  [.object [("a", .array [.null, .string "x"])], .object [("a", .array [.null, .string "x"]), ("b", .null)]]

def listRowsTurned : List Value :=
  [.object [("a", .array [.string "x", .null]), ("b", .null)], .object [("a", .array [.null, .string "x"])]]

theorem listRows_shuffles : (Value.array listRows).Shuffles (.array listRowsTurned) := by
  have turned : (Value.array [.null, .string "x"]).Shuffles (.array [.string "x", .null]) :=
    .array (.swap _ _ []) (.cons (.refl _) (.cons (.refl _) .nil))
  apply Value.Shuffles.array (List.Perm.swap _ _ [])
  exact .cons (.object rfl (.cons turned (.cons (.refl _) .nil))) (.cons (.refl _) .nil)

theorem listRows_flagsAgree (distinct : ∀ v ∈ listRows, v.keysDistinct) :
    FlagsAgree false (.array listRows) := by
  have kinds : FlagsAgree false (.array [.null, .string "x"]) := by
    have shapes : elementShapes ([.null, .string "x"].map (outline false)) = [.null, .string] := by cbv
    refine .array ⟨?_, fun key s none => by cases none⟩ ?_
    · rw [shapes]
      apply Shape.agreeOnFlags_of_pairwise
      · decide
      · simp only [List.pairwise_pair]
        intro akin
        cases akin.agree rfl rfl
    · simp only [List.forall_mem_cons]
      exact ⟨.leaf rfl, .leaf rfl, List.forall_mem_nil _⟩
  refine .array ⟨?elements, ?properties⟩ ?each
  case elements =>
    have shapes : elementShapes (listRows.map (outline false)) =
        [.object [] [⟨"a", .array (.union [.null, .string]), false, false⟩,
          ⟨"b", .unknown, true, true⟩]] := by cbv
    rw [shapes]
    apply Shape.agreeOnFlags_of_pairwise
    · decide
    · simp
  case properties =>
    intro key
    apply Shape.agreeOnFlags_of_pairwise
    · refine List.forall_mem_map.2 fun p member => ?_
      exact (Record.seen_sampled (outline_record_sampled distinct) member).shape.distinct
    -- the rows share one key, and its shapes are the same
    · have records : (listRows.map (outline false)).filterMap Shape.record? =
          [⟨[], [⟨"a", .array (.union [.null, .string]), false, false⟩]⟩,
            ⟨[], [⟨"a", .array (.union [.null, .string]), false, false⟩,
              ⟨"b", .unknown, false, true⟩]⟩] := by cbv
      rw [records, List.pairwise_map, Record.seen, List.pairwise_filterMap]
      simp only [find?, List.pairwise_cons, List.mem_cons, List.not_mem_nil, or_false, List.find?_singleton,
        decide_eq_true_eq, Option.ite_none_right_eq_some, Option.some.injEq, and_imp,
        forall_apply_eq_imp_iff, forall_eq, List.find?_cons_eq_some, Bool.not_eq_eq_eq_not, Bool.not_true,
        decide_eq_false_iff_not, IsEmpty.forall_iff, implies_true, List.Pairwise.nil, and_self, and_true]
      intro same q found akin
      rcases found with ⟨_, rfl⟩ | ⟨other, _⟩
      · exact .refl rfl
      · exact absurd same other
  case each =>
    simp only [listRows, List.forall_mem_cons]
    refine ⟨.object ?_, .object ?_, List.forall_mem_nil _⟩
    · simpa using kinds
    · simpa using ⟨kinds, .leaf rfl⟩

theorem infer_shuffled_listRows :
    (Value.array listRows).keysDistinct ∧ (Value.array listRows).Shuffles (.array listRowsTurned) ∧
      (infer {} (.array listRows)).shape.Akin true (infer {} (.array listRowsTurned)).shape := by
  have distinct : (Value.array listRows).keysDistinct = true := by cbv
  have told := listRows_flagsAgree (Value.keysDistinct_array.1 distinct)
  exact ⟨distinct, listRows_shuffles, (infer_shuffled {} distinct listRows_shuffles).2 told⟩

def flagTwinsTurned : Value :=
  .array [
    .array [.object [("a", .number (.integer 1))], .object []],
    .array [.object [("a", .number (.integer 1))]]]

/-- Whether the key is optional depends on which of the twins comes first. In the rows the lists are one
variant or two, which are akin. -/
theorem infer_turned_differs :
    flagTwins.keysDistinct ∧ flagTwins.Shuffles flagTwinsTurned ∧
      ¬ (infer {} flagTwins).shape.Akin true (infer {} flagTwinsTurned).shape ∧
      (Value.array listRows).keysDistinct ∧ (Value.array listRows).Shuffles (.array listRowsTurned) ∧
      (infer {} (.array listRows)).shape.unnamed =
        .array (.object [] [
          ⟨"a", .array (.union [.null, .string]), false, false⟩,
          ⟨"b", .unknown, true, true⟩]) ∧
      (infer {} (.array listRowsTurned)).shape.unnamed =
        .array (.object [] [
          ⟨"a", .union [.array (.union [.string, .null]), .array (.union [.null, .string])], false, false⟩,
          ⟨"b", .unknown, true, true⟩]) := by
  refine ⟨by cbv, ?_, fun akin => ?_, by cbv, listRows_shuffles, ?_, ?_⟩
  · exact .array (.swap _ _ []) (.cons (.refl _) (.cons (.refl _) .nil))
  · have outlined : outline false flagTwins =
        .array (.array (.object [] [⟨"a", .number, false, false⟩])) := by cbv
    have outlined' : outline false flagTwinsTurned =
        .array (.array (.object [] [⟨"a", .number, true, false⟩])) := by cbv
    rw [← Shape.Akin.unnamed_iff, infer_unnamed, infer_unnamed, outlined, outlined'] at akin
    cases akin.agree rfl rfl with
    | array inner =>
      cases inner.agree rfl rfl with
      | array element =>
        cases element.agree rfl rfl with
        | object keys told shapes =>
          exact absurd (told rfl _ List.mem_cons_self _ List.mem_cons_self rfl).1 (by decide)
  · rw [infer_unnamed]
    cbv
  · rw [infer_unnamed]
    cbv

end Inference

end JsonShape
