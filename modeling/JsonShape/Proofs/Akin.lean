import JsonShape.Proofs.Congruence
import JsonShape.Proofs.Discovery
import JsonShape.Proofs.MemberOrder

/-! Shapes akin up to names and order, also the order of variants.

A union is read as the set of its leaves, and a shape that is no union as a set of one, so variants that are
akin to each other count once. Whether the flags of properties must agree as well is a parameter. Any
relation that passes from shapes to their leaves and from nodes to what is inside them makes shapes akin;
this is how equality, symmetry and transitivity are shown.
-/

set_option autoImplicit false

namespace JsonShape

/-! ## Lists as sets -/

/-- Every element of the first list is related to some element of the second. -/
def Covers {α β : Type} (R : α → β → Prop) (as : List α) (bs : List β) : Prop :=
  ∀ a ∈ as, ∃ b ∈ bs, R a b

namespace Covers

variable {α β γ δ : Type} {R : α → β → Prop} {as : List α} {bs : List β}

theorem of_forall₂ (each : List.Forall₂ R as bs) : Covers R as bs :=
  fun _ member => exists_partner each.flip member

theorem imp {S : α → β → Prop} (covers : Covers R as bs)
    (weaker : ∀ a ∈ as, ∀ b ∈ bs, R a b → S a b) : Covers S as bs := by
  intro a first
  obtain ⟨b, second, related⟩ := covers a first
  exact ⟨b, second, weaker a first b second related⟩

theorem trans {S : β → γ → Prop} {cs : List γ} (first : Covers R as bs) (second : Covers S bs cs) :
    Covers (fun a c => ∃ b, R a b ∧ S b c) as cs := by
  intro a member
  obtain ⟨b, among, here⟩ := first a member
  obtain ⟨c, found, there⟩ := second b among
  exact ⟨c, found, b, here, there⟩

theorem append {as' : List α} {bs' : List β} (covers : Covers R as bs) (more : Covers R as' bs') :
    Covers R (as ++ as') (bs ++ bs') := by
  intro a member
  rcases List.mem_append.1 member with here | later
  · obtain ⟨b, found, related⟩ := covers a here
    exact ⟨b, List.mem_append_left bs' found, related⟩
  · obtain ⟨b, found, related⟩ := more a later
    exact ⟨b, List.mem_append_right bs found, related⟩

theorem filter {p : α → Bool} {q : β → Bool} (covers : Covers R as bs)
    (agree : ∀ a ∈ as, ∀ b ∈ bs, R a b → p a = q b) : Covers R (as.filter p) (bs.filter q) := by
  intro a member
  obtain ⟨first, wanted⟩ := List.mem_filter.1 member
  obtain ⟨b, second, related⟩ := covers a first
  exact ⟨b, List.mem_filter.2 ⟨second, agree a first b second related ▸ wanted⟩, related⟩

theorem map {S : γ → δ → Prop} {f : α → γ} {g : β → δ} (covers : Covers R as bs)
    (image : ∀ a b, R a b → S (f a) (g b)) : Covers S (as.map f) (bs.map g) := by
  refine List.forall_mem_map.2 fun a first => ?_
  obtain ⟨b, second, related⟩ := covers a first
  exact ⟨g b, List.mem_map_of_mem second, image a b related⟩

theorem of_map {f : γ → α} {g : δ → β} {cs : List γ} {ds : List δ}
    (covers : Covers R (cs.map f) (ds.map g)) : Covers (fun c d => R (f c) (g d)) cs ds := by
  intro c first
  obtain ⟨_, listed, related⟩ := covers (f c) (List.mem_map_of_mem first)
  obtain ⟨d, second, rfl⟩ := List.mem_map.1 listed
  exact ⟨d, second, related⟩

theorem eq_nil (covers : Covers R as []) : as = [] := by
  refine List.eq_nil_iff_forall_not_mem.2 fun a member => ?_
  obtain ⟨b, none, _⟩ := covers a member
  cases none

theorem exists_forall₂ (covers : Covers R as bs) : ∃ bs' ⊆ bs, List.Forall₂ R as bs' := by
  induction as with
  | nil => exact ⟨[], List.nil_subset bs, .nil⟩
  | cons a rest ih =>
    obtain ⟨b, found, here⟩ := covers a List.mem_cons_self
    obtain ⟨others, among, each⟩ := ih fun c member => covers c (List.mem_cons_of_mem a member)
    exact ⟨b :: others, List.cons_subset.2 ⟨found, among⟩, .cons here each⟩

end Covers

structure Covering {α β : Type} (R : α → β → Prop) (as : List α) (bs : List β) : Prop where
  left : Covers R as bs
  right : Covers (fun b a => R a b) bs as

namespace Covering

variable {α β γ δ : Type} {R : α → β → Prop} {as : List α} {bs : List β}

theorem of_forall₂ (each : List.Forall₂ R as bs) : Covering R as bs :=
  ⟨.of_forall₂ each, .of_forall₂ each.flip⟩

theorem symm (covering : Covering R as bs) : Covering (fun b a => R a b) bs as :=
  ⟨covering.right, covering.left⟩

theorem imp {S : α → β → Prop} (covering : Covering R as bs)
    (weaker : ∀ a ∈ as, ∀ b ∈ bs, R a b → S a b) : Covering S as bs :=
  ⟨covering.left.imp weaker, covering.right.imp fun b second a first => weaker a first b second⟩

theorem trans {S : β → γ → Prop} {cs : List γ} (first : Covering R as bs) (second : Covering S bs cs) :
    Covering (fun a c => ∃ b, R a b ∧ S b c) as cs := by
  refine ⟨first.left.trans second.left, (second.right.trans first.right).imp ?_⟩
  rintro c _ a _ ⟨b, there, here⟩
  exact ⟨b, here, there⟩

theorem append {as' : List α} {bs' : List β} (covering : Covering R as bs) (more : Covering R as' bs') :
    Covering R (as ++ as') (bs ++ bs') :=
  ⟨covering.left.append more.left, covering.right.append more.right⟩

theorem filter {p : α → Bool} {q : β → Bool} (covering : Covering R as bs)
    (agree : ∀ a ∈ as, ∀ b ∈ bs, R a b → p a = q b) : Covering R (as.filter p) (bs.filter q) :=
  ⟨covering.left.filter agree,
    covering.right.filter fun b second a first related => (agree a first b second related).symm⟩

theorem map {S : γ → δ → Prop} {f : α → γ} {g : β → δ} (covering : Covering R as bs)
    (image : ∀ a b, R a b → S (f a) (g b)) : Covering S (as.map f) (bs.map g) :=
  ⟨covering.left.map image, covering.right.map fun b a => image a b⟩

theorem of_map {f : γ → α} {g : δ → β} {cs : List γ} {ds : List δ}
    (covering : Covering R (cs.map f) (ds.map g)) : Covering (fun c d => R (f c) (g d)) cs ds :=
  ⟨covering.left.of_map, covering.right.of_map⟩

theorem eq_nil_iff (covering : Covering R as bs) : as = [] ↔ bs = [] := by
  constructor
  · rintro rfl
    exact covering.right.eq_nil
  · rintro rfl
    exact covering.left.eq_nil

/-- Lists that cover each other can be listed anew, pair by pair. -/
theorem exists_forall₂ (covering : Covering R as bs) :
    ∃ as' bs', (∀ a, a ∈ as' ↔ a ∈ as) ∧ (∀ b, b ∈ bs' ↔ b ∈ bs) ∧ List.Forall₂ R as' bs' := by
  obtain ⟨others, among, each⟩ := covering.left.exists_forall₂
  obtain ⟨others', among', each'⟩ := covering.right.exists_forall₂
  refine ⟨as ++ others', others ++ bs, fun a => ?_, fun b => ?_, List.rel_append each each'.flip⟩
  · rw [List.mem_append, or_iff_left_of_imp (@among' a)]
  · rw [List.mem_append, or_iff_right_of_imp (@among b)]

end Covering

namespace Shape

/-! ## Nodes -/

/-- Two nodes agree, and what is inside them is related. -/
inductive NodesAgree (flags : Bool) (R : Shape → Shape → Prop) : Shape → Shape → Prop where
  | string : NodesAgree flags R .string .string
  | number : NodesAgree flags R .number .number
  | boolean : NodesAgree flags R .boolean .boolean
  | null : NodesAgree flags R .null .null
  | date : NodesAgree flags R .date .date
  | unknown : NodesAgree flags R .unknown .unknown
  | array {element other : Shape} (inner : R element other) :
      NodesAgree flags R (.array element) (.array other)
  | object {n m : Text} {ps qs : List (Property Shape)}
      (keys : (ps.map (·.key)).Perm (qs.map (·.key)))
      (told : flags → ∀ p ∈ ps, ∀ q ∈ qs, p.key = q.key →
        p.optional = q.optional ∧ p.nullable = q.nullable)
      (shapes : ∀ p ∈ ps, ∀ q ∈ qs, p.key = q.key → R p.shape q.shape) :
      NodesAgree flags R (.object n ps) (.object m qs)

/-- Equal up to the names of objects, the order of their properties and the order of variants. -/
inductive Akin (flags : Bool) : Shape → Shape → Prop where
  | node {a b : Shape} (agree : NodesAgree flags (Akin flags) a b) : Akin flags a b
  | union {a b : Shape} {as bs : List Shape} (either : a.isUnion ∨ b.isUnion)
      (first : ∀ s, s ∈ as ↔ s ∈ a.leaves) (second : ∀ t, t ∈ bs ↔ t ∈ b.leaves)
      (each : List.Forall₂ (Akin flags) as bs) : Akin flags a b

theorem single_of_mem_leaves {s t : Shape} (member : t ∈ s.leaves) : t.isUnion = false := by
  induction s with
  | union variants ih =>
    rw [leaves_union] at member
    obtain ⟨v, listed, among⟩ := List.mem_flatMap.1 member
    exact ih v listed among
  | _ => rw [List.mem_singleton.1 member]; rfl

theorem size_le_of_mem_leaves {s t : Shape} (member : t ∈ s.leaves) : t.size ≤ s.size := by
  induction s with
  | union variants ih =>
    rw [leaves_union] at member
    obtain ⟨v, listed, among⟩ := List.mem_flatMap.1 member
    have inner := ih v listed among
    have bound := size_le_sizeAll listed
    rw [size]
    omega
  | _ => rw [List.mem_singleton.1 member]

theorem size_lt_of_mem_inside {s t : Shape} (member : t ∈ s.inside) : t.size < s.size :=
  Nat.lt_of_le_of_lt (size_le_sizeAll member) (sizeAll_inside_lt s)

namespace NodesAgree

variable {flags : Bool} {R S : Shape → Shape → Prop} {a b : Shape}

theorem imp (agree : NodesAgree flags R a b)
    (weaker : ∀ s ∈ a.inside, ∀ t ∈ b.inside, R s t → S s t) : NodesAgree flags S a b := by
  cases agree with
  | array inner => exact .array (weaker _ List.mem_cons_self _ List.mem_cons_self inner)
  | object keys told shapes =>
    refine .object keys told fun p first q second same => ?_
    exact weaker _ (List.mem_map_of_mem first) _ (List.mem_map_of_mem second) (shapes p first q second same)
  | _ => constructor

theorem symm (agree : NodesAgree flags R a b) : NodesAgree flags (fun t s => R s t) b a := by
  cases agree with
  | array inner => exact .array inner
  | object keys told shapes =>
    refine .object keys.symm (fun flags q second p first same => ?_) fun q second p first same => ?_
    · exact (told flags p first q second same.symm).imp Eq.symm Eq.symm
    · exact shapes p first q second same.symm
  | _ => constructor

theorem trans {c : Shape} (first : NodesAgree flags R a b) (second : NodesAgree flags S b c) :
    NodesAgree flags (fun s u => ∃ t, R s t ∧ S t u) a c := by
  cases first with
  | array inner =>
    cases second with
    | array inner' => exact .array ⟨_, inner, inner'⟩
  | @object n m ps qs keys told shapes =>
    cases second with
    | object keys' told' shapes' =>
      -- a property between two with the same key has this key too
      have between (p : Property Shape) (member : p ∈ ps) : ∃ q ∈ qs, p.key = q.key := by
        obtain ⟨q, found, same⟩ := List.mem_map.1 (keys.mem_iff.1 (List.mem_map_of_mem member))
        exact ⟨q, found, same.symm⟩
      refine .object (keys.trans keys') (fun flags p here r there same => ?_) fun p here r there same => ?_
      · obtain ⟨q, found, key⟩ := between p here
        obtain ⟨optional, nullable⟩ := told flags p here q found key
        obtain ⟨optional', nullable'⟩ := told' flags q found r there (key.symm.trans same)
        exact ⟨optional.trans optional', nullable.trans nullable'⟩
      · obtain ⟨q, found, key⟩ := between p here
        exact ⟨q.shape, shapes p here q found key, shapes' q found r there (key.symm.trans same)⟩
  | _ => cases second; constructor

theorem forget (agree : NodesAgree flags R a b) : NodesAgree false R a b := by
  cases agree with
  | array inner => exact .array inner
  | object keys told shapes => exact .object keys nofun shapes
  | _ => constructor

theorem isUnion (agree : NodesAgree flags R a b) : a.isUnion = false ∧ b.isUnion = false := by
  cases agree <;> exact ⟨rfl, rfl⟩

theorem isUnknown (agree : NodesAgree flags R a b) : a.isUnknown = b.isUnknown := by
  cases agree <;> rfl

theorem isNull (agree : NodesAgree flags R a b) : a.isNull = b.isNull := by
  cases agree <;> rfl

theorem isObject (agree : NodesAgree flags R a b) : a.isObject = b.isObject := by
  cases agree <;> rfl

theorem unnamed (agree : NodesAgree flags R a b) :
    NodesAgree flags (fun x y => ∃ s t, s.unnamed = x ∧ t.unnamed = y ∧ R s t) a.unnamed b.unnamed := by
  cases agree with
  | array inner => exact .array ⟨_, _, rfl, rfl, inner⟩
  | object keys told shapes =>
    rw [unnamed_object, unnamed_object]
    refine .object (by simpa [List.map_map, Function.comp_def] using keys) ?told ?shapes
    case told =>
      intro flags p' listed q' listed' same
      obtain ⟨p, first, rfl⟩ := List.mem_map.1 listed
      obtain ⟨q, second, rfl⟩ := List.mem_map.1 listed'
      exact told flags p first q second same
    case shapes =>
      intro p' listed q' listed' same
      obtain ⟨p, first, rfl⟩ := List.mem_map.1 listed
      obtain ⟨q, second, rfl⟩ := List.mem_map.1 listed'
      exact ⟨p.shape, q.shape, rfl, rfl, shapes p first q second same⟩
  | _ => constructor

theorem of_unnamed (agree : NodesAgree flags R a.unnamed b.unnamed) :
    NodesAgree flags (fun s t => R s.unnamed t.unnamed) a b := by
  cases a with
  | array element =>
    cases b with
    | array other =>
      cases agree with
      | array inner => exact .array inner
    | _ => cases agree
  | union variants => cases agree
  | object n ps =>
    cases b with
    | object m qs =>
      rw [unnamed_object, unnamed_object] at agree
      cases agree with
      | object keys told shapes =>
        rw [List.map_map, List.map_map] at keys
        refine .object keys (fun flags p first q second same => ?_) fun p first q second same => ?_
        · exact told flags p.unnamed (List.mem_map_of_mem first) q.unnamed (List.mem_map_of_mem second) same
        · exact shapes p.unnamed (List.mem_map_of_mem first) q.unnamed (List.mem_map_of_mem second) same
    | _ => cases agree
  | _ =>
    cases b <;> cases agree
    constructor

end NodesAgree

namespace Akin

variable {flags : Bool} {a b c : Shape}

theorem agree (akin : Akin flags a b) (single : a.isUnion = false) (single' : b.isUnion = false) :
    NodesAgree flags (Akin flags) a b := by
  cases akin with
  | node agree => exact agree
  | union either first second each =>
    rw [single, single'] at either
    rcases either with isUnion | isUnion <;> cases isUnion

/-- Shapes are akin when their leaves are, as sets. -/
theorem iff_leaves : Akin flags a b ↔ Covering (Akin flags) a.leaves b.leaves := by
  constructor
  · intro akin
    cases akin with
    | node agree =>
      rw [leaves_of_not_union agree.isUnion.1, leaves_of_not_union agree.isUnion.2]
      exact .of_forall₂ (.cons (.node agree) .nil)
    | union either first second each =>
      have covering := Covering.of_forall₂ each
      constructor
      · intro s member
        obtain ⟨t, found, akin⟩ := covering.left s ((first s).2 member)
        exact ⟨t, (second t).1 found, akin⟩
      · intro t member
        obtain ⟨s, found, akin⟩ := covering.right t ((second t).2 member)
        exact ⟨s, (first s).1 found, akin⟩
  · intro covering
    by_cases either : a.isUnion ∨ b.isUnion
    · obtain ⟨as, bs, first, second, each⟩ := covering.exists_forall₂
      exact .union either first second each
    · rw [not_or, Bool.not_eq_true, Bool.not_eq_true] at either
      rw [leaves_of_not_union either.1, leaves_of_not_union either.2] at covering
      obtain ⟨t, member, akin⟩ := covering.left a List.mem_cons_self
      rwa [List.mem_singleton.1 member] at akin

/-- A relation that passes to leaves and to what is inside nodes makes shapes akin. -/
theorem of_simulation {R : Shape → Shape → Prop}
    (leaves : ∀ a b, R a b → Covering R a.leaves b.leaves)
    (agree : ∀ a b, a.isUnion = false → b.isUnion = false → R a b → NodesAgree flags R a b)
    {a b : Shape} (related : R a b) : Akin flags a b := by
  -- by induction on the size of the first shape, since what is inside its leaves is smaller
  refine iff_leaves.2 ((leaves a b related).imp fun s first t second here => .node ?_)
  refine (agree s t (single_of_mem_leaves first) (single_of_mem_leaves second) here).imp
    fun x inside y _ inner => ?_
  have smaller : x.size < a.size :=
    Nat.lt_of_lt_of_le (size_lt_of_mem_inside inside) (size_le_of_mem_leaves first)
  exact of_simulation leaves agree inner
termination_by a.size

theorem symm (akin : Akin flags a b) : Akin flags b a :=
  of_simulation (R := fun t s => Akin flags s t) (fun _ _ related => (iff_leaves.1 related).symm)
    (fun _ _ single single' related => (related.agree single' single).symm) akin

theorem trans (first : Akin flags a b) (second : Akin flags b c) : Akin flags a c := by
  refine of_simulation (R := fun s u => ∃ t, Akin flags s t ∧ Akin flags t u) ?leaves ?agree ⟨b, first, second⟩
  case leaves =>
    rintro s u ⟨t, here, there⟩
    exact (iff_leaves.1 here).trans (iff_leaves.1 there)
  case agree =>
    -- between two single shapes may stand a union, any leaf of which will do
    rintro s u single single' ⟨t, here, there⟩
    have before := iff_leaves.1 here
    have after := iff_leaves.1 there
    rw [leaves_of_not_union single] at before
    rw [leaves_of_not_union single'] at after
    obtain ⟨leaf, among, here⟩ := before.left s List.mem_cons_self
    obtain ⟨u', last, there⟩ := after.left leaf among
    rw [List.mem_singleton.1 last] at there
    have singleLeaf := single_of_mem_leaves among
    exact (here.agree single singleLeaf).trans (there.agree singleLeaf single')

theorem forget (akin : Akin flags a b) : Akin false a b :=
  of_simulation (R := Akin flags) (fun _ _ related => iff_leaves.1 related)
    (fun _ _ single single' related => (related.agree single single').forget) akin

/-- Structural equality takes no notice of flags, but of the order of variants. -/
theorem of_equal (equal : a.Equal b) : Akin false a b := by
  refine of_simulation (R := Equal) (fun _ _ related => .of_forall₂ related.leaves) ?_ equal
  intro a b single single' equal
  have same := equal.same
  -- nodes of different kinds have no pairs of children
  have nodes := childPairs?_isSome_of_same same
  cases a with
  | array element =>
    cases b with
    | array other => exact .array ⟨equal.first, equal.second, (same_array element other).1 same⟩
    | _ => cases nodes
  | union variants => cases single
  | object n ps =>
    cases b with
    | object m qs =>
      obtain ⟨once, first⟩ := keysDistinct_object.1 equal.first
      obtain ⟨once', second⟩ := keysDistinct_object.1 equal.second
      obtain ⟨keys, shapes⟩ := (same_object n m ps qs).1 same
      refine .object ?_ nofun fun p here q there key => ?_
      · exact (List.perm_ext_iff_of_nodup once once').2 (sameKeys_iff.1 keys)
      · have found := find?_of_mem once' there
        rw [← key] at found
        exact ⟨first p here, second q there, shapes p here q found⟩
    | _ => cases nodes
  | _ =>
    cases b <;> cases nodes
    constructor

/-- Names make no difference. -/
theorem unnamed_iff : Akin flags a.unnamed b.unnamed ↔ Akin flags a b := by
  constructor
  · intro akin
    refine of_simulation (R := fun a b => Akin flags a.unnamed b.unnamed) ?leaves ?agree akin
    case leaves =>
      intro a b related
      have covering := iff_leaves.1 related
      rw [leaves_unnamed, leaves_unnamed] at covering
      exact covering.of_map
    case agree =>
      intro a b single single' related
      have nodes := related.agree ((isUnion_unnamed a).trans single) ((isUnion_unnamed b).trans single')
      exact nodes.of_unnamed
  · intro akin
    refine of_simulation (R := fun x y => ∃ s t, s.unnamed = x ∧ t.unnamed = y ∧ Akin flags s t)
      ?leaves ?agree ⟨a, b, rfl, rfl, akin⟩
    case leaves =>
      rintro _ _ ⟨s, t, rfl, rfl, related⟩
      rw [leaves_unnamed, leaves_unnamed]
      exact (iff_leaves.1 related).map fun s t akin => ⟨s, t, rfl, rfl, akin⟩
    case agree =>
      rintro _ _ single single' ⟨s, t, rfl, rfl, related⟩
      rw [isUnion_unnamed] at single single'
      exact (related.agree single single').unnamed

theorem refl (distinct : a.keysDistinct) : Akin flags a a := by
  refine of_simulation (R := fun s t => s = t ∧ s.keysDistinct) ?leaves ?agree ⟨rfl, distinct⟩
  case leaves =>
    rintro s _ ⟨rfl, distinct⟩
    have known := fun t (member : t ∈ s.leaves) => keysDistinct_leaves distinct member
    exact ⟨fun t member => ⟨t, member, rfl, known t member⟩, fun t member => ⟨t, member, rfl, known t member⟩⟩
  case agree =>
    rintro s _ single _ ⟨rfl, distinct⟩
    cases s with
    | array element => exact .array ⟨rfl, distinct⟩
    | union variants => cases single
    | object name properties =>
      obtain ⟨once, inner⟩ := keysDistinct_object.1 distinct
      have alone {p q : Property Shape} (first : p ∈ properties) (second : q ∈ properties)
          (same : p.key = q.key) : p = q := List.inj_on_of_nodup_map once first second same
      refine .object (.refl _) (fun _ p first q second same => ?_) fun p first q second same => ?_
      · rw [alone first second same]
        exact ⟨rfl, rfl⟩
      · rw [alone first second same]
        exact ⟨rfl, inner q second⟩
    | _ => constructor

end Akin

end Shape

end JsonShape
