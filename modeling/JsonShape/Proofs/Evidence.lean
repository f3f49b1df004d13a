import JsonShape.Proofs.Acceptance

/-! Evidence for a shape in the sample.

A place of a sample is named by the keys and element steps that lead to it, with indices left out. A
shape offers kinds, keys and flags at such places, and inference offers nothing that the sample does not
show there.
-/

set_option autoImplicit false

namespace JsonShape

open Json (Value Member lookup?)

inductive Step where
  | element
  | member (key : Text)

inductive Json.Value.Reaches : Value → List Step → Value → Prop where
  | here (v : Value) : Reaches v [] v
  | element {elements : List Value} {v w : Value} {path : List Step} (among : v ∈ elements)
      (rest : Reaches v path w) : Reaches (.array elements) (.element :: path) w
  | member {members : List Member} {key : Text} {v w : Value} {path : List Step}
      (among : (key, v) ∈ members) (rest : Reaches v path w) :
      Reaches (.object members) (.member key :: path) w

inductive Kind where
  | string
  | date
  | number
  | boolean
  | null
  | array
  | object
  deriving DecidableEq

def Json.Value.kind (dates : Bool) : Value → Kind
  | .null => .null
  | .bool _ => .boolean
  | .number _ => .number
  | .string s => if dates && s.isDate then .date else .string
  | .array _ => .array
  | .object _ => .object

namespace Shape

def kind? : Shape → Option Kind
  | .string => some .string
  | .date => some .date
  | .number => some .number
  | .boolean => some .boolean
  | .null => some .null
  | .array _ => some .array
  | .object _ _ => some .object
  | .unknown | .union _ => none

/-- A single shape is offered at the end of a path. Unions are passed through. -/
inductive Offers : Shape → List Step → Shape → Prop where
  | here {s : Shape} (single : s.isUnion = false) : Offers s [] s
  | variant {variants : List Shape} {s t : Shape} {path : List Step} (among : s ∈ variants)
      (rest : Offers s path t) : Offers (.union variants) path t
  | element {element t : Shape} {path : List Step} (rest : Offers element path t) :
      Offers (.array element) (.element :: path) t
  | property {name : Text} {properties : List (Property Shape)} {p : Property Shape} {t : Shape}
      {path : List Step} (among : p ∈ properties) (rest : Offers p.shape path t) :
      Offers (.object name properties) (.member p.key :: path) t

end Shape

/-- What a property says is seen in objects at the end of the path: one that has the key, one where it is
null if that is allowed, and one that lacks it if it is optional. -/
structure Property.Witnessed (v : Value) (path : List Step) (p : Property Shape) : Prop where
  key : ∃ members w, v.Reaches path (.object members) ∧ (p.key, w) ∈ members
  nullable : p.nullable → ∃ members, v.Reaches path (.object members) ∧ (p.key, .null) ∈ members
  optional : p.optional → ∃ members, v.Reaches path (.object members) ∧ ∀ m ∈ members, m.1 ≠ p.key

/-- A shape is witnessed at the end of a path by a value of its kind and by what its properties say. -/
structure Shape.WitnessedAt (dates : Bool) (v : Value) (path : List Step) (t : Shape) : Prop where
  kind : ∀ k, t.kind? = some k → ∃ w, v.Reaches path w ∧ w.kind dates = k
  properties : ∀ name ps, t = .object name ps → ∀ p ∈ ps, p.Witnessed v path

def Shape.Witnessed (dates : Bool) (s : Shape) (v : Value) : Prop :=
  ∀ path t, s.Offers path t → t.WitnessedAt dates v path

/-- The shape conforms to the value, and nowhere by standing for just any value. Each object is admitted
by a single object shape that declares all its keys. -/
def Shape.Covers (s : Shape) (v : Value) : Prop := s.Admits { lenient := true, openUnknown := false } v

/-! ## Moving evidence outwards -/

theorem Property.Witnessed.lift {v whole : Value} {path longer : List Step} {p : Property Shape}
    (outer : ∀ w, v.Reaches path w → whole.Reaches longer w) (witnessed : p.Witnessed v path) :
    p.Witnessed whole longer where
  key := by
    obtain ⟨members, w, reached, among⟩ := witnessed.key
    exact ⟨members, w, outer _ reached, among⟩
  nullable allowed := by
    obtain ⟨members, reached, among⟩ := witnessed.nullable allowed
    exact ⟨members, outer _ reached, among⟩
  optional allowed := by
    obtain ⟨members, reached, lacks⟩ := witnessed.optional allowed
    exact ⟨members, outer _ reached, lacks⟩

namespace Shape

theorem WitnessedAt.lift {dates : Bool} {v whole : Value} {path longer : List Step} {t : Shape}
    (outer : ∀ w, v.Reaches path w → whole.Reaches longer w) (witnessed : t.WitnessedAt dates v path) :
    t.WitnessedAt dates whole longer where
  kind k known := by
    obtain ⟨w, reached, same⟩ := witnessed.kind k known
    exact ⟨w, outer w reached, same⟩
  properties name ps object p member := (witnessed.properties name ps object p member).lift outer

theorem witnessedAt_unknown (dates : Bool) (v : Value) (path : List Step) :
    unknown.WitnessedAt dates v path where
  kind k known := by cases known
  properties name ps object := by cases object

/-! ## What merging offers -/

theorem offers_of_mem_leaves {s leaf t : Shape} {path : List Step} (member : leaf ∈ s.leaves)
    (offered : leaf.Offers path t) : s.Offers path t := by
  induction s with
  | union variants ih =>
    rw [leaves_union, List.mem_flatMap] at member
    obtain ⟨variant, among, inside⟩ := member
    exact .variant among (ih variant among inside)
  | _ => rwa [List.mem_singleton.1 member] at offered

theorem offers_union {variants : List Shape} {t : Shape} {path : List Step}
    (offered : Offers (.union variants) path t) : ∃ s ∈ variants, s.Offers path t := by
  cases offered with
  | here single => cases single
  | variant among rest => exact ⟨_, among, rest⟩

theorem offers_ofVariants {variants : List Shape} {t : Shape} {path : List Step}
    (offered : (ofVariants variants).Offers path t) : ∃ s ∈ variants, s.Offers path t := by
  match variants with
  | [] => exact offers_union offered
  | [only] => exact ⟨only, List.mem_singleton_self only, offered⟩
  | first :: second :: rest => exact offers_union offered

theorem offers_unknown {t : Shape} {path : List Step} (offered : unknown.Offers path t) :
    t = .unknown := by
  cases offered
  rfl

/-- A merge offers what the merged shapes offer, and unknown if there are none. -/
theorem offers_merge {shapes : List Shape} {t : Shape} {path : List Step}
    (offered : (merge shapes).Offers path t) : t = .unknown ∨ ∃ s ∈ shapes, s.Offers path t := by
  cases shapes with
  | nil => exact .inl (offers_unknown offered)
  | cons first rest =>
    rw [merge_cons] at offered
    obtain ⟨leaf, chosen, offered⟩ := offers_ofVariants offered
    obtain ⟨s, member, inside⟩ := mem_leaves_of_mem_choices chosen
    exact .inr ⟨s, member, offers_of_mem_leaves inside offered⟩

theorem offers_null_of_splitNull {s : Shape} (told : s.splitNull.2) : s.Offers [] .null := by
  cases s with
  | union variants =>
    rw [splitNull] at told
    by_cases all : (variants.filter (!·.isNull)).length = variants.length
    · rw [if_pos all] at told
      cases told
    · rw [← Ne, ← Nat.lt_iff_le_and_ne.trans (and_iff_right (List.length_filter_le _ _)),
        List.length_filter_lt_length_iff_exists] at all
      obtain ⟨variant, among, null⟩ := all
      cases variant <;> simp [isNull] at null
      exact .variant among (.here rfl)
  | _ => cases told

theorem offers_of_splitNull {s t : Shape} {path : List Step} (offered : s.splitNull.1.Offers path t) :
    s.Offers path t := by
  cases s with
  | union variants =>
    by_cases told : (splitNull (.union variants)).2
    · have nullOffered := offers_null_of_splitNull told
      rw [splitNull] at offered
      split at offered
      · exact offered
      · split at offered
        · cases offered
          exact nullOffered
        · obtain ⟨variant, among, offered⟩ := offers_ofVariants offered
          exact .variant (List.mem_filter.1 among).1 offered
    · rw [splitNull] at offered told
      split at offered
      · exact offered
      · next some =>
        rw [if_neg some] at told
        split at told <;> exact absurd rfl told
  | _ => exact offered

end Shape

namespace Record

open Shape

/-- Inside the merge of objects nothing is offered that none of them offers. -/
theorem offers_merge_step {records : List Record} {name : Text} {step : Step} {path : List Step}
    {t : Shape} (offered : (merge records name).toShape.Offers (step :: path) t) :
    t = .unknown ∨ ∃ r ∈ records, r.toShape.Offers (step :: path) t := by
  match records with
  | [] =>
    cases offered with
    | property among => cases among
  | [only] =>
    cases offered with
    | property among rest => exact .inr ⟨only, List.mem_singleton_self only, .property among rest⟩
  | first :: second :: rest =>
    rw [merge_several] at offered
    generalize first :: second :: rest = records at *
    cases offered with
    | property among offered =>
      obtain ⟨key, _, rfl⟩ := List.mem_map.1 among
      rw [mergedProperty_eq] at offered
      rcases offers_merge (offers_of_splitNull offered) with unknown | ⟨s, member, offered⟩
      · exact .inl unknown
      · obtain ⟨p, seen, rfl⟩ := List.mem_map.1 member
        obtain ⟨r, member, found⟩ := mem_seen.1 seen
        rw [mergedProperty_key, ← find?_key found]
        exact .inr ⟨r, member, .property (mem_of_find? found) offered⟩

end Record

namespace Inference

open Shape

variable {dates : Bool}

theorem outline_kind? (v : Value) : (outline dates v).kind? = some (v.kind dates) := by
  cases v with
  | string s => rw [outline, Value.kind]; split <;> rfl
  | _ => rfl

theorem propertyOf_witnessed {members : List Member} {m : Member} (member : m ∈ members) :
    (propertyOf m.1 (outline dates m.2)).Witnessed (.object members) [] := by
  obtain ⟨key, v⟩ := m
  rw [propertyOf]
  split
  · next isNull =>
    cases outline_isNull.1 isNull
    refine ⟨⟨members, .null, .here _, member⟩, fun _ => ⟨members, .here _, member⟩, ?_⟩
    intro optional
    cases optional
  · refine ⟨⟨members, v, .here _, member⟩, ?_, ?_⟩
    · intro nullable
      cases nullable
    · intro optional
      cases optional

theorem outline_witnessedAt_root (v : Value) : (outline dates v).WitnessedAt dates v [] where
  kind k known := ⟨v, .here v, Option.some.inj ((outline_kind? v).symm.trans known)⟩
  properties name ps object p inside := by
    cases v with
    | object members =>
      rw [outline_object] at object
      cases object
      obtain ⟨m, member, rfl⟩ := List.mem_map.1 inside
      exact propertyOf_witnessed member
    | string s => rw [outline] at object; split at object <;> cases object
    | _ => cases object

theorem null_of_reaches {v : Value} {key : Text} {w : Value} (reached : v.Reaches [.member key] w)
    (null : w.kind dates = .null) : ∃ members, v = .object members ∧ (key, .null) ∈ members := by
  cases reached with
  | @member members _ inner _ _ among rest =>
    cases rest
    refine ⟨members, rfl, ?_⟩
    cases w with
    | null => exact among
    | string s => rw [Value.kind] at null; split at null <;> cases null
    | _ => cases null

/-! ## Evidence in the elements of an array -/

section

variable {elements : List Value} {records : List Record}
  (recordsEq : (elements.map (outline dates)).filterMap record? = records)

include recordsEq

theorem record_of_element {r : Record} (member : r ∈ records) :
    ∃ members, .object members ∈ elements ∧ r.toShape = outline dates (.object members) ∧
      ∀ key, find? r.properties key =
        (lookup? members key).map fun v => propertyOf key (outline dates v) := by
  simp only [← recordsEq, List.mem_filterMap, List.mem_map] at member
  obtain ⟨s, ⟨v, among, rfl⟩, found⟩ := member
  obtain ⟨members, rfl, rfl⟩ := outline_record? found
  exact ⟨members, among, (outline_object dates members).symm, find?_outline_members dates members⟩

variable (known : ∀ v ∈ elements, (outline dates v).Witnessed dates v)

include known

theorem property_witnessed {r : Record} (member : r ∈ records) {p : Property Shape}
    (inside : p ∈ r.properties) : p.Witnessed (.array elements) [.element] := by
  obtain ⟨members, among, shape, _⟩ := record_of_element recordsEq member
  have offered : (outline dates (.object members)).Offers [] r.toShape := by
    rw [← shape]
    exact .here rfl
  have witnessed := known _ among [] r.toShape offered
  apply (witnessed.properties r.name r.properties rfl p inside).lift
  exact fun w reached => .element among reached

theorem null_witnessed {key : Text}
    (told : (merge ((Record.seen records key).map (·.shape))).splitNull.2) :
    ∃ members, (Value.array elements).Reaches [.element] (.object members) ∧
      (key, .null) ∈ members := by
  rcases offers_merge (offers_null_of_splitNull told) with unknown | ⟨s, member, offered⟩
  · cases unknown
  · obtain ⟨q, seen, rfl⟩ := List.mem_map.1 member
    obtain ⟨r, member, found⟩ := Record.mem_seen.1 seen
    obtain ⟨members, among, shape, _⟩ := record_of_element recordsEq member
    have inner : r.toShape.Offers [.member q.key] .null := .property (mem_of_find? found) offered
    obtain ⟨w, reached, null⟩ := (known _ among _ _ (shape ▸ inner)).kind .null rfl
    obtain ⟨_, same, has⟩ := null_of_reaches reached null
    cases same
    rw [← find?_key found]
    exact ⟨members, .element among (.here _), has⟩

omit known in
/-- A property is optional in the merge only if some object lacks its key. -/
theorem lack_witnessed {key : Text} (fewer : (Record.seen records key).length < records.length) :
    ∃ members, (Value.array elements).Reaches [.element] (.object members) ∧
      ∀ m ∈ members, m.1 ≠ key := by
  obtain ⟨r, member, lacks⟩ := List.length_filterMap_lt_length_iff_exists.1 fewer
  obtain ⟨members, among, _, found⟩ := record_of_element recordsEq member
  rw [found, Option.map_eq_none_iff] at lacks
  refine ⟨members, .element among (.here _), fun m member same => ?_⟩
  have differs := List.lookup_eq_none_iff.1 lacks m member
  rw [same] at differs
  simp at differs

theorem mergedProperty_witnessed {key : Text} (among : key ∈ records.flatMap Record.keys) :
    (Record.mergedProperty records key).Witnessed (.array elements) [.element] where
  key := by
    obtain ⟨r, member, has⟩ := List.mem_flatMap.1 among
    obtain ⟨q, listed, rfl⟩ := List.mem_map.1 has
    exact (property_witnessed recordsEq known member listed).key
  nullable allowed := by
    rw [Record.mergedProperty_eq, Bool.or_eq_true] at allowed
    rcases allowed with told | some
    · exact null_witnessed recordsEq known told
    · obtain ⟨q, seen, nullable⟩ := List.any_eq_true.1 some
      obtain ⟨r, member, found⟩ := Record.mem_seen.1 seen
      rw [Record.mergedProperty_key, ← find?_key found]
      exact (property_witnessed recordsEq known member (mem_of_find? found)).nullable nullable
  optional allowed := by
    rw [Record.mergedProperty_eq] at allowed
    exact lack_witnessed recordsEq (of_decide_eq_true allowed)

theorem merge_properties_witnessed {p : Property Shape}
    (inside : p ∈ (Record.merge records []).properties) :
    p.Witnessed (.array elements) [.element] := by
  match records with
  | [] => cases inside
  | [only] => exact property_witnessed recordsEq known (List.mem_singleton_self only) inside
  | first :: second :: rest =>
    rw [Record.merge_several] at inside
    obtain ⟨key, among, rfl⟩ := List.mem_map.1 inside
    exact mergedProperty_witnessed recordsEq known (List.mem_eraseDups.1 among)

theorem merge_witnessed {t : Shape} {path : List Step} (some : records ≠ [])
    (offered : (Record.merge records []).toShape.Offers path t) :
    t.WitnessedAt dates (.array elements) (.element :: path) := by
  cases path with
  | nil =>
    cases offered with
    | here single =>
      refine ⟨fun k object => ?_, fun name ps object p inside => ?_⟩
      · obtain ⟨r, member⟩ := List.exists_mem_of_ne_nil _ some
        obtain ⟨members, among, _, _⟩ := record_of_element recordsEq member
        exact ⟨.object members, .element among (.here _), Option.some.inj object⟩
      · cases object
        exact merge_properties_witnessed recordsEq known inside
  | cons step path =>
    rcases Record.offers_merge_step offered with unknown | ⟨r, member, offered⟩
    · exact unknown ▸ witnessedAt_unknown dates _ _
    · obtain ⟨members, among, shape, _⟩ := record_of_element recordsEq member
      exact (known _ among _ t (shape ▸ offered)).lift fun w reached => .element among reached

end

/-- The outline of a value offers only what the value shows. -/
theorem outline_witnessed (v : Value) : (outline dates v).Witnessed dates v := by
  induction v with
  | array elements ih =>
    intro path t offered
    rw [outline_array] at offered
    cases offered with
    | here single =>
      rw [← outline_array]
      exact outline_witnessedAt_root _
    | element offered =>
      rcases offers_merge offered with unknown | ⟨s, member, offered⟩
      · exact unknown ▸ witnessedAt_unknown dates _ _
      -- what an element offers comes from one that is no object or from the merge of the objects
      · rcases List.mem_append.1 member with other | item
        · obtain ⟨v, among, rfl⟩ := List.mem_map.1 (List.mem_filter.1 other).1
          exact (ih v among _ t offered).lift fun w reached => .element among reached
        · generalize recordsEq : (elements.map (outline dates)).filterMap record? = records at item
          cases records with
          | nil => cases item
          | cons r records =>
            rw [List.mem_singleton.1 item] at offered
            exact merge_witnessed recordsEq ih (List.cons_ne_nil r records) offered
  | object members ih =>
    intro path t offered
    rw [outline_object] at offered
    cases offered with
    | here single =>
      rw [← outline_object]
      exact outline_witnessedAt_root _
    | property among offered =>
      obtain ⟨m, member, rfl⟩ := List.mem_map.1 among
      rw [propertyOf] at offered ⊢
      split at offered
      · cases offers_unknown offered
        exact witnessedAt_unknown dates _ _
      · next notNull =>
        rw [if_neg notNull]
        exact (ih m member _ t offered).lift fun w reached => .member member reached
  | string s =>
    intro path t offered
    have root : (outline dates (.string s)).WitnessedAt dates (.string s) [] :=
      outline_witnessedAt_root _
    rw [outline] at offered root
    split at offered
    · next dated =>
      rw [if_pos dated] at root
      cases offered
      exact root
    · next plain =>
      rw [if_neg plain] at root
      cases offered
      exact root
  | null | bool b | number n =>
    intro path t offered
    cases offered
    exact outline_witnessedAt_root _

end Inference

namespace Shape

theorem Offers.unnamed {s t : Shape} {path : List Step} (offered : s.Offers path t) :
    s.unnamed.Offers path t.unnamed := by
  induction offered with
  | here single => exact .here (by rwa [isUnion_unnamed])
  | variant among rest ih =>
    rw [unnamed_union]
    exact .variant (List.mem_map_of_mem among) ih
  | element rest ih => exact .element ih
  | @property name properties p t path among rest ih =>
    rw [unnamed_object]
    have member : p.unnamed ∈ properties.map Property.unnamed := List.mem_map_of_mem among
    change Offers _ (.member p.unnamed.key :: path) _
    exact .property member ih

@[simp] theorem kind?_unnamed (s : Shape) : s.unnamed.kind? = s.kind? := by
  cases s <;> rfl

theorem WitnessedAt.of_unnamed {dates : Bool} {v : Value} {path : List Step} {t : Shape}
    (witnessed : t.unnamed.WitnessedAt dates v path) : t.WitnessedAt dates v path where
  kind k known := witnessed.kind k (by rwa [kind?_unnamed])
  properties name ps object p inside := by
    subst object
    have member : p.unnamed ∈ ps.map Property.unnamed := List.mem_map_of_mem inside
    have seen := witnessed.properties [] _ (unnamed_object name ps) p.unnamed member
    exact ⟨seen.key, seen.nullable, seen.optional⟩

end Shape

/-- The inferred shape covers the sample and offers nothing that the sample does not show. -/
theorem infer_covers_and_witnessed (o : Inference.Options) (v : Value) :
    (infer o v).shape.Covers v ∧ (infer o v).shape.Witnessed o.detectsDates v := by
  constructor
  · rw [Shape.Covers, ← Shape.admits_unnamed, Inference.infer_unnamed]
    exact Inference.admits_outline rfl rfl
  · intro path t offered
    have outlined := offered.unnamed
    rw [Inference.infer_unnamed] at outlined
    exact (Inference.outline_witnessed v path t.unnamed outlined).of_unnamed

end JsonShape
