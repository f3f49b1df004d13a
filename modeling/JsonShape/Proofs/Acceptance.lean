import JsonShape.Proofs.Outline

/-! Acceptance of the sample by its own shape.

A shape accepts a value when the value has its form and every object declares all keys, lacks only what
is optional and is null only where that is allowed. Read leniently, the flags of properties do not
matter. Inference gives a shape that accepts the sample leniently in any case, and strictly unless
merging gave up a shape for an equal one with fewer flags.
-/

set_option autoImplicit false

namespace JsonShape

open Json (Value Member Number lookup?)

structure Reading where
  /-- Every member may be missing or null, whatever the flags say. -/
  lenient : Bool := false
  /-- The unknown shape stands for any value. Otherwise it stands for none. -/
  openUnknown : Bool := true

namespace Reading

def letsMiss (reading : Reading) (p : Property Shape) : Bool := p.optional || reading.lenient

def letsNull (reading : Reading) (p : Property Shape) : Bool := p.nullable || reading.lenient

end Reading

namespace Shape

inductive Admits (reading : Reading) : Shape → Value → Prop where
  | string (s : Text) : Admits reading .string (.string s)
  | number (n : Number) : Admits reading .number (.number n)
  | boolean (b : Bool) : Admits reading .boolean (.bool b)
  | null : Admits reading .null .null
  | date {s : Text} (dated : s.isDate) : Admits reading .date (.string s)
  | unknown (allowed : reading.openUnknown) (v : Value) : Admits reading .unknown v
  | array {element : Shape} {elements : List Value}
      (each : ∀ v ∈ elements, Admits reading element v) : Admits reading (.array element) (.array elements)
  | union {variants : List Shape} {s : Shape} {v : Value} (among : s ∈ variants)
      (admitted : Admits reading s v) : Admits reading (.union variants) v
  | object {name : Text} {properties : List (Property Shape)} {members : List Member}
      (declared : ∀ key v, lookup? members key = some v → (find? properties key).isSome)
      (absent : ∀ key p, find? properties key = some p → lookup? members key = none →
        reading.letsMiss p)
      (present : ∀ key p v, find? properties key = some p → lookup? members key = some v →
        ¬ (v = .null ∧ reading.letsNull p) → Admits reading p.shape v) :
      Admits reading (.object name properties) (.object members)

/-- The shape accepts the value, flags included. -/
def Accepts (s : Shape) (v : Value) : Prop := s.Admits {} v

/-- The shape accepts the value once members may be missing or null anywhere. -/
def Conforms (s : Shape) (v : Value) : Prop := s.Admits { lenient := true } v

theorem Admits.of_array {reading : Reading} {element : Shape} {v : Value}
    (admitted : (Shape.array element).Admits reading v) :
    ∃ elements, v = .array elements ∧ ∀ w ∈ elements, element.Admits reading w := by
  cases admitted with
  | array each => exact ⟨_, rfl, each⟩

theorem Admits.of_union {reading : Reading} {variants : List Shape} {v : Value}
    (admitted : (Shape.union variants).Admits reading v) : ∃ s ∈ variants, s.Admits reading v := by
  cases admitted with
  | union among admitted => exact ⟨_, among, admitted⟩

theorem Admits.of_object {reading : Reading} {name : Text} {properties : List (Property Shape)}
    {v : Value} (admitted : (Shape.object name properties).Admits reading v) :
    ∃ members, v = .object members ∧
      (∀ key w, lookup? members key = some w → (find? properties key).isSome) ∧
      (∀ key p, find? properties key = some p → lookup? members key = none → reading.letsMiss p) ∧
      ∀ key p w, find? properties key = some p → lookup? members key = some w →
        ¬ (w = .null ∧ reading.letsNull p) → p.shape.Admits reading w := by
  cases admitted with
  | object declared absent present => exact ⟨_, rfl, declared, absent, present⟩

theorem Admits.unknown_opened {lenient : Bool} {s : Shape} {v : Value}
    (admitted : s.Admits { lenient, openUnknown := false } v) : s.Admits { lenient } v := by
  induction admitted with
  | string s => exact .string s
  | number n => exact .number n
  | boolean b => exact .boolean b
  | null => exact .null
  | date dated => exact .date dated
  | unknown allowed v => exact .unknown rfl v
  | array each ih => exact .array ih
  | union among admitted ih => exact .union among ih
  | object declared absent present ih => exact .object declared absent ih

theorem admits_unnamed {reading : Reading} {s : Shape} {v : Value} :
    s.unnamed.Admits reading v ↔ s.Admits reading v := by
  induction s generalizing v with
  | array element ih =>
    rw [unnamed_array]
    constructor
    · intro admitted
      obtain ⟨elements, rfl, each⟩ := admitted.of_array
      exact .array fun v member => ih.1 (each v member)
    · intro admitted
      obtain ⟨elements, rfl, each⟩ := admitted.of_array
      exact .array fun v member => ih.2 (each v member)
  | union variants ih =>
    rw [unnamed_union]
    constructor
    · intro admitted
      obtain ⟨_, among, admitted⟩ := admitted.of_union
      obtain ⟨s, member, rfl⟩ := List.mem_map.1 among
      exact .union member ((ih s member).1 admitted)
    · intro admitted
      obtain ⟨s, among, admitted⟩ := admitted.of_union
      exact .union (List.mem_map_of_mem among) ((ih s among).2 admitted)
  | object name properties ih =>
    rw [unnamed_object]
    constructor
    · intro admitted
      obtain ⟨members, rfl, declared, absent, present⟩ := admitted.of_object
      simp only [find?_unnamed, Option.isSome_map] at declared absent present
      refine .object declared (fun key p found => absent key p.unnamed (by rw [found]; rfl)) ?_
      intro key p v found value notNull
      exact (ih p (mem_of_find? found)).1
        (present key p.unnamed v (by rw [found]; rfl) value notNull)
    · intro admitted
      obtain ⟨members, rfl, declared, absent, present⟩ := admitted.of_object
      refine .object ?_ ?_ ?_
      · simpa only [find?_unnamed, Option.isSome_map] using declared
      · intro key p found missing
        rw [find?_unnamed, Option.map_eq_some_iff] at found
        obtain ⟨p, found, rfl⟩ := found
        exact absent key p found missing
      · intro key p v found value notNull
        rw [find?_unnamed, Option.map_eq_some_iff] at found
        obtain ⟨p, found, rfl⟩ := found
        exact (ih p (mem_of_find? found)).2 (present key p v found value notNull)
  | _ => rfl

end Shape

/-! ## Shapes that stand in for others -/

def Property.hasFlagsOf (p q : Property Shape) : Bool :=
  (!q.optional || p.optional) && (!q.nullable || p.nullable)

theorem Property.letsMiss_of_hasFlagsOf {p q : Property Shape} {reading : Reading}
    (flags : reading.lenient || p.hasFlagsOf q) (allowed : reading.letsMiss q) :
    reading.letsMiss p := by
  cases lenient : reading.lenient <;> simp_all [hasFlagsOf, Reading.letsMiss]

theorem Property.letsNull_of_hasFlagsOf {p q : Property Shape} {reading : Reading}
    (flags : reading.lenient || p.hasFlagsOf q) (allowed : reading.letsNull q) :
    reading.letsNull p := by
  cases lenient : reading.lenient <;> simp_all [hasFlagsOf, Reading.letsNull]

namespace Shape

mutual

/-- Whether two shapes are structurally equal and, if `flags` asks for it, the first has every flag of
the second. -/
def carries (flags : Bool) : Shape → Shape → Bool
  | .string, .string => true
  | .number, .number => true
  | .boolean, .boolean => true
  | .null, .null => true
  | .date, .date => true
  | .unknown, .unknown => true
  | .array a, .array b => carries flags a b
  | .union as, .union bs => carriesAll flags as bs
  | .object _ ps, .object _ qs => sameKeys ps qs && carriesProperties flags ps qs
  | _, _ => false

def carriesAll (flags : Bool) : List Shape → List Shape → Bool
  | [], [] => true
  | a :: as, b :: bs => carries flags a b && carriesAll flags as bs
  | _, _ => false

def carriesProperties (flags : Bool) : List (Property Shape) → List (Property Shape) → Bool
  | [], _ => true
  | p :: rest, qs =>
    (match find? qs p.key with
      | none => false
      | some q =>
        (!flags || p.hasFlagsOf q) && carries flags p.shape q.shape) &&
      carriesProperties flags rest qs

end

theorem carriesAll_iff {flags : Bool} {as bs : List Shape} :
    carriesAll flags as bs ↔ List.Forall₂ (fun a b => a.carries flags b) as bs := by
  induction as generalizing bs with
  | nil => cases bs <;> simp [carriesAll]
  | cons a as ih => cases bs <;> simp [carriesAll, ih]

theorem exists_carrier {flags : Bool} {as bs : List Shape} (carried : carriesAll flags as bs) {b : Shape}
    (member : b ∈ bs) : ∃ a ∈ as, a.carries flags b := by
  induction as generalizing bs with
  | nil => cases bs <;> simp [carriesAll] at carried member
  | cons a as ih =>
    cases bs with
    | nil => cases member
    | cons first bs =>
      rw [carriesAll, Bool.and_eq_true] at carried
      rcases List.mem_cons.1 member with here | later
      · exact ⟨a, List.mem_cons_self, here ▸ carried.1⟩
      · obtain ⟨other, among, found⟩ := ih carried.2 later
        exact ⟨other, List.mem_cons_of_mem a among, found⟩

theorem carriesProperties_iff {flags : Bool} {ps qs : List (Property Shape)} :
    carriesProperties flags ps qs ↔ ∀ p ∈ ps, ∃ q, find? qs p.key = some q ∧
      (!flags || p.hasFlagsOf q) ∧ p.shape.carries flags q.shape := by
  induction ps with
  | nil => simp [carriesProperties]
  | cons p ps ih =>
    rw [carriesProperties, Bool.and_eq_true, ih, List.forall_mem_cons]
    refine and_congr_left fun _ => ?_
    cases find? qs p.key with
    | none => simp
    | some q => simp

theorem carries_of_same {a b : Shape} (equal : same a b) : a.carries false b := by
  -- nodes of different kinds have no pairs of children, so both shapes have the same constructor
  have agree := childPairs?_isSome_of_same equal
  induction a generalizing b with
  | array element ih =>
    cases b with
    | array other =>
      have inner := (same_array element other).1 equal
      exact ih inner (childPairs?_isSome_of_same inner)
    | _ => cases agree
  | union as ih =>
    cases b with
    | union bs =>
      obtain ⟨lengths, pairs⟩ := List.forall₂_iff_zip.1 ((same_union as bs).1 equal)
      refine carriesAll_iff.2 (List.forall₂_iff_zip.2 ⟨lengths, fun member => ?_⟩)
      have inner := pairs member
      exact ih _ (List.of_mem_zip member).1 inner (childPairs?_isSome_of_same inner)
    | _ => cases agree
  | object n ps ih =>
    cases b with
    | object m qs =>
      obtain ⟨agree, children⟩ := (same_object n m ps qs).1 equal
      rw [carries, agree, Bool.true_and]
      refine carriesProperties_iff.2 fun p member => ?_
      have declared : (find? qs p.key).isSome :=
        (find?_isSome_of_sameKeys agree p.key).1 (find?_isSome_iff.2 (List.mem_map_of_mem member))
      obtain ⟨q, found⟩ := Option.isSome_iff_exists.1 declared
      have inner := children p member q found
      exact ⟨q, found, rfl, ih p member inner (childPairs?_isSome_of_same inner)⟩
    | _ => cases agree
  | _ => cases b <;> cases agree; rfl

/-- A value passes from a shape to one that carries it, unless the flags it relies on are left out. -/
theorem Admits.of_carries {reading : Reading} {flags : Bool} {s t : Shape} {v : Value}
    (enough : reading.lenient || flags) (carried : t.carries flags s) (admitted : s.Admits reading v) :
    t.Admits reading v := by
  induction t generalizing s v with
  | array element ih =>
    cases s with
    | array other =>
      obtain ⟨elements, rfl, each⟩ := admitted.of_array
      exact .array fun v member => ih carried (each v member)
    | _ => cases carried
  | union variants ih =>
    cases s with
    | union others =>
      obtain ⟨other, among, inner⟩ := admitted.of_union
      obtain ⟨t, member, found⟩ := exists_carrier carried among
      exact .union member (ih t member found inner)
    | _ => cases carried
  | object n ps ih =>
    cases s with
    | object m qs =>
      obtain ⟨members, rfl, declared, absent, present⟩ := admitted.of_object
      rw [carries, Bool.and_eq_true] at carried
      obtain ⟨agree, children⟩ := carried
      -- keys agree, so every property has one that it stands in for
      have counterpart (key : Text) (p : Property Shape) (found : find? ps key = some p) :
          ∃ q, find? qs key = some q ∧ (reading.lenient || p.hasFlagsOf q) ∧
            p.shape.carries flags q.shape := by
        obtain ⟨q, other, allFlags, inner⟩ := carriesProperties_iff.1 children p (mem_of_find? found)
        rw [find?_key found] at other
        refine ⟨q, other, ?_, inner⟩
        cases lenient : reading.lenient <;> simp_all
      refine .object ?_ ?_ ?_
      · intro key v value
        exact (find?_isSome_of_sameKeys agree key).2 (declared key v value)
      · intro key p found missing
        obtain ⟨q, other, kept, inner⟩ := counterpart key p found
        exact Property.letsMiss_of_hasFlagsOf kept (absent key q other missing)
      · intro key p v found value notNull
        obtain ⟨q, other, kept, inner⟩ := counterpart key p found
        refine ih p (mem_of_find? found) inner (present key q v other value fun null => notNull ?_)
        exact ⟨null.1, Property.letsNull_of_hasFlagsOf kept null.2⟩
    | _ => cases carried
  | _ => cases s <;> cases carried; exact admitted

/-! ## Merging -/

/-- Whether merging the shapes keeps for each of them one that has all its flags. -/
def keepsFlags (shapes : List Shape) : Bool :=
  (flatten shapes).all fun s => (distinct (flatten shapes)).any fun t => t.carries true s

theorem exists_leaf_admits {reading : Reading} {s : Shape} {v : Value} (admitted : s.Admits reading v) :
    ∃ t ∈ s.leaves, t.Admits reading v := by
  induction admitted with
  | union among admitted ih =>
    obtain ⟨t, member, inner⟩ := ih
    rw [leaves_union]
    exact ⟨t, List.mem_flatMap.2 ⟨_, among, member⟩, inner⟩
  | string s => exact ⟨_, List.mem_singleton_self _, .string s⟩
  | number n => exact ⟨_, List.mem_singleton_self _, .number n⟩
  | boolean b => exact ⟨_, List.mem_singleton_self _, .boolean b⟩
  | null => exact ⟨_, List.mem_singleton_self _, .null⟩
  | date dated => exact ⟨_, List.mem_singleton_self _, .date dated⟩
  | unknown allowed v => exact ⟨_, List.mem_singleton_self _, .unknown allowed v⟩
  | array each => exact ⟨_, List.mem_singleton_self _, .array each⟩
  | object declared absent present =>
    exact ⟨_, List.mem_singleton_self _, .object declared absent present⟩

theorem admits_ofVariants {reading : Reading} {variants : List Shape} {s : Shape} {v : Value}
    (among : s ∈ variants) (admitted : s.Admits reading v) : (ofVariants variants).Admits reading v := by
  match variants with
  | [] => cases among
  | [only] => cases List.mem_singleton.1 among; exact admitted
  | first :: second :: rest => exact .union among admitted

theorem Admits.known {reading : Reading} (closed : reading.openUnknown = false) {s : Shape} {v : Value}
    (admitted : s.Admits reading v) : s.isUnknown = false := by
  cases admitted with
  | unknown allowed v => rw [closed] at allowed; cases allowed
  | _ => rfl

theorem admits_distinct {reading : Reading} {shapes : List Shape} {s : Shape} {v : Value}
    (kept : reading.lenient || keepsFlags shapes) (member : s ∈ flatten shapes)
    (admitted : s.Admits reading v) : ∃ t ∈ distinct (flatten shapes), t.Admits reading v := by
  cases lenient : reading.lenient with
  | true =>
    obtain ⟨t, found, equal⟩ := exists_mem_distinct member
    refine ⟨t, found, ?_⟩
    rcases equal with same | equal
    · exact same ▸ admitted
    · exact admitted.of_carries (by rw [lenient]; rfl) (carries_of_same equal)
  | false =>
    rw [lenient, Bool.false_or, keepsFlags, List.all_eq_true] at kept
    obtain ⟨t, found, carried⟩ := List.any_eq_true.1 (kept s member)
    exact ⟨t, found, admitted.of_carries (by simp) carried⟩

theorem admits_merge {reading : Reading} (closed : reading.openUnknown = false) {shapes : List Shape}
    {s : Shape} {v : Value} (kept : reading.lenient || keepsFlags shapes) (member : s ∈ shapes)
    (admitted : s.Admits reading v) : (merge shapes).Admits reading v := by
  obtain ⟨leaf, inside, admitted⟩ := exists_leaf_admits admitted
  obtain ⟨t, found, admitted⟩ := admits_distinct kept (mem_flatten.2 ⟨s, member, inside⟩) admitted
  rw [merge_of_mem member]
  exact admits_ofVariants (mem_preferKnown found (admitted.known closed)) admitted

theorem admits_splitNull {reading : Reading} {s : Shape} {v : Value} (admitted : s.Admits reading v) :
    v = .null ∧ s.splitNull.2 ∨ s.splitNull.1.Admits reading v := by
  cases s with
  | union variants =>
    obtain ⟨t, among, inner⟩ := admitted.of_union
    rw [splitNull]
    by_cases all : (variants.filter (!·.isNull)).length = variants.length
    · rw [if_pos all]
      exact .inr (.union among inner)
    · rw [if_neg all]
      by_cases null : t.isNull
      · refine .inl ⟨?_, by split <;> rfl⟩
        cases t <;> cases null
        cases inner
        rfl
      · have other : t ∈ variants.filter (!·.isNull) := List.mem_filter.2 ⟨among, by simp [null]⟩
        split
        · next none => rw [none] at other; cases other
        · exact .inr (admits_ofVariants other inner)
  | _ => exact .inr admitted

end Shape

namespace Record

open Shape

/-- The record of an object as it stands in the sample, where nothing has been merged yet. -/
def Fresh (r : Record) : Prop := ∀ p ∈ r.properties, p.optional = false

theorem admits_mergedProperty {reading : Reading} (closed : reading.openUnknown = false)
    {records : List Record} {r : Record} {key : Text} {p : Property Shape} {v : Value}
    (kept : reading.lenient || keepsFlags ((seen records key).map (·.shape))) (member : r ∈ records)
    (found : find? r.properties key = some p)
    (admitted : ¬ (v = .null ∧ reading.letsNull p) → p.shape.Admits reading v)
    (notNull : ¬ (v = .null ∧ reading.letsNull (mergedProperty records key))) :
    (mergedProperty records key).shape.Admits reading v := by
  have among : p ∈ seen records key := mem_seen.2 ⟨r, member, found⟩
  have inner : p.shape.Admits reading v := by
    refine admitted fun null => notNull ⟨null.1, ?_⟩
    have allowed := null.2
    rw [Reading.letsNull, Bool.or_eq_true] at allowed ⊢
    refine allowed.imp_left fun nullable => ?_
    rw [mergedProperty_eq, Bool.or_eq_true]
    exact .inr (List.any_eq_true.2 ⟨p, among, nullable⟩)
  have merged := admits_merge closed kept (List.mem_map_of_mem among) inner
  rcases admits_splitNull merged with ⟨null, told⟩ | rest
  · exact absurd ⟨null, by simp [Reading.letsNull, mergedProperty_eq, told]⟩ notNull
  · exact rest

/-- An object that one of several merged records admits is admitted by the merge. -/
theorem admits_merge {reading : Reading} (closed : reading.openUnknown = false)
    {records : List Record} {r : Record} {members : List Member} (name : Text)
    (fresh : ∀ r ∈ records, r.Fresh)
    (kept : ∀ key ∈ records.flatMap keys,
      reading.lenient || keepsFlags ((seen records key).map (·.shape)))
    (member : r ∈ records) (admitted : r.toShape.Admits reading (.object members)) :
    (merge records name).toShape.Admits reading (.object members) := by
  obtain ⟨_, same, declared, absent, present⟩ := admitted.of_object
  cases same
  match records with
  | [] => cases member
  | [only] =>
    cases List.mem_singleton.1 member
    exact .object declared absent present
  | first :: second :: rest =>
    rw [merge_several]
    generalize several : first :: second :: rest = records at *
    refine .object ?_ ?_ ?_
    · intro key v value
      have known := find?_isSome_iff.1 (declared key v value)
      rw [find?_map_mergedProperty, if_pos]
      · rfl
      · exact List.mem_eraseDups.2 (List.mem_flatMap.2 ⟨r, member, known⟩)
    · intro key q found missing
      rw [eq_mergedProperty found, Reading.letsMiss, Bool.or_eq_true]
      -- a fresh record has no optional property, so it lacks the key like the object itself
      cases has : find? r.properties key with
      | none =>
        left
        rw [mergedProperty_eq]
        exact decide_eq_true (List.length_filterMap_lt_length_iff_exists.2 ⟨r, member, has⟩)
      | some p =>
        right
        have allowed := absent key p has missing
        rwa [Reading.letsMiss, fresh r member p (mem_of_find? has), Bool.false_or] at allowed
    · intro key q v found value notNull
      obtain ⟨p, has⟩ := Option.isSome_iff_exists.1 (declared key v value)
      have among : key ∈ records.flatMap keys :=
        List.mem_flatMap.2 ⟨r, member, find?_isSome_iff.1 (declared key v value)⟩
      rw [eq_mergedProperty found] at notNull ⊢
      exact admits_mergedProperty closed (kept key among) member has (present key p v has value) notNull

end Record

namespace Inference

open Shape

/-- Whether merging the shapes found in an array loses no flag, neither in its objects nor in its
element. -/
def mergeKeepsFlags (shapes : List Shape) : Bool :=
  let records := shapes.filterMap record?
  keepsFlags (elementShapes shapes) &&
    (records.flatMap Record.keys).all fun key => keepsFlags ((Record.seen records key).map (·.shape))

mutual

/-- Whether no array inside the value loses a flag when its shapes are merged. -/
def flagsKept (dates : Bool) : Value → Bool
  | .array elements =>
    flagsKeptElements dates elements && mergeKeepsFlags (outlineElements dates elements)
  | .object members => flagsKeptMembers dates members
  | _ => true

def flagsKeptElements (dates : Bool) : List Value → Bool
  | [] => true
  | v :: rest => flagsKept dates v && flagsKeptElements dates rest

def flagsKeptMembers (dates : Bool) : List (Text × Value) → Bool
  | [] => true
  | (_, v) :: rest => flagsKept dates v && flagsKeptMembers dates rest

end

theorem flagsKeptElements_iff {dates : Bool} {elements : List Value} :
    flagsKeptElements dates elements ↔ ∀ v ∈ elements, flagsKept dates v := by
  induction elements with
  | nil => simp [flagsKeptElements]
  | cons v rest ih => rw [flagsKeptElements, Bool.and_eq_true, ih, List.forall_mem_cons]

theorem flagsKeptMembers_iff {dates : Bool} {members : List Member} :
    flagsKeptMembers dates members ↔ ∀ m ∈ members, flagsKept dates m.2 := by
  induction members with
  | nil => simp [flagsKeptMembers]
  | cons m rest ih => rw [flagsKeptMembers, Bool.and_eq_true, ih, List.forall_mem_cons]

theorem find?_outline_members (dates : Bool) (members : List Member) (key : Text) :
    find? (members.map fun m => propertyOf m.1 (outline dates m.2)) key =
      (lookup? members key).map fun v => propertyOf key (outline dates v) := by
  have keyKept (m : Member) : (propertyOf m.1 (outline dates m.2)).key = m.1 := by
    rw [propertyOf]
    split <;> rfl
  induction members with
  | nil => rfl
  | cons m rest ih =>
    obtain ⟨first, v⟩ := m
    rw [lookup?] at ih
    rw [List.map_cons, find?, List.find?_cons, keyKept, lookup?, List.lookup_cons]
    by_cases here : first = key
    · subst here
      simp
    · have other : (key == first) = false := beq_false_of_ne (Ne.symm here)
      rw [decide_eq_false here, other]
      exact ih

theorem outline_isNull {dates : Bool} {v : Value} : (outline dates v).isNull ↔ v = .null := by
  cases v with
  | string s => rw [outline]; split <;> simp [Shape.isNull]
  | _ => simp [outline, Shape.isNull]

theorem outline_record? {dates : Bool} {v : Value} {r : Record}
    (found : (outline dates v).record? = some r) :
    ∃ members, v = .object members ∧
      r = ⟨[], members.map fun m => propertyOf m.1 (outline dates m.2)⟩ := by
  cases v with
  | object members =>
    rw [outline_object] at found
    exact ⟨members, rfl, (Option.some.inj found).symm⟩
  | string s => rw [outline] at found; split at found <;> cases found
  | _ => cases found

theorem outline_record_fresh {dates : Bool} {elements : List Value} {r : Record}
    (member : r ∈ (elements.map (outline dates)).filterMap record?) : r.Fresh := by
  simp only [List.mem_filterMap, List.mem_map] at member
  obtain ⟨s, ⟨v, among, rfl⟩, found⟩ := member
  obtain ⟨members, rfl, rfl⟩ := outline_record? found
  intro p inside
  obtain ⟨m, _, rfl⟩ := List.mem_map.1 inside
  rw [propertyOf]
  split <;> rfl

theorem admits_object {reading : Reading} {dates : Bool} {members : List Member}
    (inner : ∀ m ∈ members, (outline dates m.2).Admits reading m.2) :
    (outline dates (.object members)).Admits reading (.object members) := by
  rw [outline_object]
  refine .object ?_ ?_ ?_
  · intro key v value
    rw [find?_outline_members, value]
    rfl
  · intro key p found missing
    rw [find?_outline_members, missing] at found
    cases found
  · intro key p v found value notNull
    rw [find?_outline_members, value, Option.map_some, Option.some.injEq] at found
    subst found
    have member : (key, v) ∈ members := Json.mem_of_lookup? value
    cases isNull : (outline dates v).isNull with
    | true =>
      refine absurd ⟨outline_isNull.1 isNull, ?_⟩ notNull
      simp [propertyOf, isNull, Reading.letsNull]
    | false =>
      rw [propertyOf, isNull]
      exact inner (key, v) member

theorem admits_array {reading : Reading} (closed : reading.openUnknown = false) {dates : Bool}
    {elements : List Value} (inner : ∀ v ∈ elements, (outline dates v).Admits reading v)
    (kept : reading.lenient || mergeKeepsFlags (elements.map (outline dates))) :
    (outline dates (.array elements)).Admits reading (.array elements) := by
  rw [Bool.or_eq_true, mergeKeepsFlags, Bool.and_eq_true, List.all_eq_true] at kept
  have elementKept : reading.lenient || keepsFlags (elementShapes (elements.map (outline dates))) :=
    Bool.or_eq_true _ _ ▸ kept.imp_right And.left
  rw [outline_array]
  refine .array fun v member => ?_
  have shapeMember : outline dates v ∈ elements.map (outline dates) := List.mem_map_of_mem member
  -- an object is admitted by the merge of all objects, any other element by its own shape
  cases recorded : (outline dates v).record? with
  | none =>
    have other := isObject_of_record? recorded
    refine Shape.admits_merge closed elementKept ?_ (inner v member)
    exact List.mem_append_left _ (List.mem_filter.2 ⟨shapeMember, by rw [other]; rfl⟩)
  | some r =>
    have among : r ∈ (elements.map (outline dates)).filterMap record? :=
      List.mem_filterMap.2 ⟨_, shapeMember, recorded⟩
    obtain ⟨members, rfl, rfl⟩ := outline_record? recorded
    have admitted := inner _ member
    rw [outline_object] at admitted
    have whole := Record.admits_merge closed [] (fun _ => outline_record_fresh)
      (fun key known => Bool.or_eq_true _ _ ▸ kept.imp_right fun both => both.2 key known) among
      admitted
    refine Shape.admits_merge closed elementKept (List.mem_append_right _ ?_) whole
    split
    · next none => rw [none] at among; cases among
    · exact List.mem_singleton_self _

theorem admits_outline {reading : Reading} (closed : reading.openUnknown = false) {dates : Bool}
    {v : Value} (kept : reading.lenient || flagsKept dates v) : (outline dates v).Admits reading v := by
  rw [Bool.or_eq_true] at kept
  induction v with
  | null => exact .null
  | bool b => exact .boolean b
  | number n => exact .number n
  | string s =>
    rw [outline]
    split
    · next dated => exact .date (Bool.and_eq_true_iff.1 dated).2
    · exact .string s
  | array elements ih =>
    rw [flagsKept, Bool.and_eq_true, flagsKeptElements_iff, outlineElements_eq] at kept
    refine admits_array closed (fun v member => ih v member ?_) (Bool.or_eq_true _ _ ▸ ?_)
    · exact kept.imp_right fun both => both.1 v member
    · exact kept.imp_right And.right
  | object members ih =>
    rw [flagsKept, flagsKeptMembers_iff] at kept
    exact admits_object fun m member => ih m member (kept.imp_right fun all => all m member)

end Inference

/-- The inferred shape conforms to the sample in any case, and accepts it unless merging has given up a
shape for an equal one that lacks some of its flags. -/
theorem infer_accepts (o : Inference.Options) (v : Value) :
    (infer o v).shape.Conforms v ∧
      (Inference.flagsKept o.detectsDates v → (infer o v).shape.Accepts v) := by
  constructor
  · refine Shape.Admits.unknown_opened (Shape.admits_unnamed.1 ?_)
    rw [Inference.infer_unnamed]
    exact Inference.admits_outline rfl rfl
  · intro kept
    refine Shape.Admits.unknown_opened (Shape.admits_unnamed.1 ?_)
    rw [Inference.infer_unnamed]
    exact Inference.admits_outline rfl kept

def equalTwins : Value :=
  .array [
    .array [.object [("a", .number (.integer 1))], .object []],
    .array [.object [("a", .number (.integer 2))], .object []],
    .object [("b", .array [.null, .string "2024-01-02"])],
    .object [("b", .null), ("c", .array [])]]

theorem infer_accepts_equalTwins :
    Inference.flagsKept true equalTwins ∧
      (infer { detectsDates := true } equalTwins).shape.Accepts equalTwins := by
  have kept : Inference.flagsKept true equalTwins = true := by cbv
  exact ⟨kept, (infer_accepts { detectsDates := true } equalTwins).2 kept⟩

def flagTwins : Value :=
  .array [
    .array [.object [("a", .number (.integer 1))]],
    .array [.object [("a", .number (.integer 1))], .object []]]

/-- The shape of the second array gives way to that of the first, where the key is not optional. -/
theorem not_accepts_flagTwins :
    flagTwins.isContainer ∧ ¬ (infer {} flagTwins).shape.Accepts flagTwins := by
  refine ⟨rfl, fun accepted => ?_⟩
  have outlined : Inference.outline false flagTwins =
      .array (.array (.object [] [⟨"a", .number, false, false⟩])) := by cbv
  rw [Shape.Accepts, ← Shape.admits_unnamed, Inference.infer_unnamed, outlined] at accepted
  -- the object without members sits in the second array
  obtain ⟨_, whole, outer⟩ := accepted.of_array
  cases whole
  obtain ⟨_, second, inner⟩ := (outer _ (List.mem_cons_of_mem _ List.mem_cons_self)).of_array
  cases second
  obtain ⟨_, none, _, absent, _⟩ :=
    (inner (.object []) (List.mem_cons_of_mem _ List.mem_cons_self)).of_object
  cases none
  exact absurd (absent "a" _ rfl rfl) (by decide)

end JsonShape
