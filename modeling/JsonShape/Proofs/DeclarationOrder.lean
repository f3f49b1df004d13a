import JsonShape.Proofs.Discovery

/-! The order of declarations.

The objects of a shape are found in the order of their addresses, an outer object before the objects inside
it. Declared the other way round, every object stands behind all objects inside it.
-/

set_option autoImplicit false

namespace JsonShape.Shape

mutual

def objectAddresses : Shape → List (List Nat)
  | .array element => (objectAddresses element).map (0 :: ·)
  | .union variants => variantAddresses 0 variants
  | .object _ properties => [] :: propertyAddresses 0 properties
  | _ => []

def variantAddresses (i : Nat) : List Shape → List (List Nat)
  | [] => []
  | s :: rest => (objectAddresses s).map (i :: ·) ++ variantAddresses (i + 1) rest

def propertyAddresses (i : Nat) : List (Property Shape) → List (List Nat)
  | [] => []
  | p :: rest => (objectAddresses p.shape).map (i :: ·) ++ propertyAddresses (i + 1) rest

end

theorem propertyAddresses_eq (i : Nat) (properties : List (Property Shape)) :
    propertyAddresses i properties = variantAddresses i (properties.map (·.shape)) := by
  induction properties generalizing i with
  | nil => rfl
  | cons p rest ih => rw [propertyAddresses, ih, List.map_cons, variantAddresses]

theorem objectAddresses_eq (s : Shape) :
    s.objectAddresses = s.record?.toList.map (fun _ => []) ++ variantAddresses 0 s.inside := by
  cases s with
  | array element => simp [objectAddresses, record?, inside, variantAddresses]
  | union variants => simp [objectAddresses, record?, inside]
  | object name properties => simp [objectAddresses, record?, inside, propertyAddresses_eq]
  | _ => rfl

/-! ## Addresses among several shapes -/

/-- The node at an address that starts with the position of a shape, counted from `i`. -/
def nodeAmong? (i : Nat) (shapes : List Shape) : List Nat → Option Shape
  | [] => none
  | j :: rest => if i ≤ j then shapes[j - i]?.bind (nodeAt? · rest) else none

theorem nodeAmong?_here (i : Nat) (s : Shape) (rest : List Shape) (address : List Nat) :
    nodeAmong? i (s :: rest) (i :: address) = s.nodeAt? address := by
  simp [nodeAmong?]

theorem nodeAmong?_later {i : Nat} {s : Shape} {rest : List Shape} {address : List Nat} {t : Shape}
    (leads : nodeAmong? (i + 1) rest address = some t) : nodeAmong? i (s :: rest) address = some t := by
  cases address with
  | nil => cases leads
  | cons j below =>
    rw [nodeAmong?] at leads ⊢
    split at leads
    · next bound =>
      have position : j - i = j - (i + 1) + 1 := by omega
      rw [if_pos (by omega), position, List.getElem?_cons_succ]
      exact leads
    · cases leads

theorem nodeAmong?_cases {i : Nat} {s : Shape} {rest : List Shape} {address : List Nat} {t : Shape}
    (leads : nodeAmong? i (s :: rest) address = some t) :
    (∃ below, address = i :: below ∧ s.nodeAt? below = some t) ∨
      nodeAmong? (i + 1) rest address = some t := by
  cases address with
  | nil => cases leads
  | cons j below =>
    rw [nodeAmong?] at leads
    split at leads
    · next bound =>
      rcases Nat.eq_or_lt_of_le bound with rfl | later
      · exact .inl ⟨below, rfl, by simpa using leads⟩
      · have position : j - i = j - (i + 1) + 1 := by omega
        rw [position, List.getElem?_cons_succ] at leads
        rw [nodeAmong?, if_pos (Nat.succ_le_of_lt later)]
        exact .inr leads
    · cases leads

theorem nodeAmong?_inside (s : Shape) (address : List Nat) (i : Nat) :
    nodeAmong? 0 s.inside (i :: address) = s.nodeAt? (i :: address) := by
  simp [nodeAmong?, nodeAt?]

theorem head_variantAddresses {i : Nat} {shapes : List Shape} {address : List Nat}
    (member : address ∈ variantAddresses i shapes) : ∃ j rest, i ≤ j ∧ address = j :: rest := by
  induction shapes generalizing i with
  | nil => cases member
  | cons s rest ih =>
    rcases List.mem_append.1 member with here | later
    · obtain ⟨below, _, rfl⟩ := List.mem_map.1 here
      exact ⟨i, below, Nat.le_refl i, rfl⟩
    · obtain ⟨j, below, bound, rfl⟩ := ih later
      exact ⟨j, below, Nat.le_of_succ_le bound, rfl⟩

def LeadsTo (s : Shape) (address : List Nat) (r : Record) : Prop := s.nodeAt? address = some r.toShape

/-- No address goes on from a later one. -/
def OuterFirst (addresses : List (List Nat)) : Prop :=
  addresses.Pairwise fun earlier later => ¬ later <+: earlier

theorem leadsTo_variantAddresses {i : Nat} {shapes : List Shape}
    (each : ∀ t ∈ shapes, List.Forall₂ t.LeadsTo t.objectAddresses t.preorder) :
    List.Forall₂ (fun address (r : Record) => nodeAmong? i shapes address = some r.toShape)
      (variantAddresses i shapes) (shapes.flatMap preorder) := by
  induction shapes generalizing i with
  | nil => exact .nil
  | cons s rest ih =>
    rw [variantAddresses, List.flatMap_cons]
    apply List.rel_append
    · rw [List.forall₂_map_left_iff]
      refine (each s List.mem_cons_self).imp fun address r leads => ?_
      rw [nodeAmong?_here]
      exact leads
    · exact (ih fun t member => each t (List.mem_cons_of_mem s member)).imp
        fun address r leads => nodeAmong?_later leads

theorem outerFirst_variantAddresses {i : Nat} {shapes : List Shape}
    (each : ∀ t ∈ shapes, OuterFirst t.objectAddresses) : OuterFirst (variantAddresses i shapes) := by
  induction shapes generalizing i with
  | nil => exact .nil
  | cons s rest ih =>
    refine List.pairwise_append.2 ⟨?_, ih fun t member => each t (List.mem_cons_of_mem s member), ?_⟩
    · refine List.pairwise_map.2 ((each s List.mem_cons_self).imp fun apart goesOn => apart ?_)
      exact (List.cons_prefix_cons.1 goesOn).2
    · intro first here second later goesOn
      obtain ⟨below, _, rfl⟩ := List.mem_map.1 here
      obtain ⟨j, below', bound, rfl⟩ := head_variantAddresses later
      have same := (List.cons_prefix_cons.1 goesOn).1
      omega

theorem mem_variantAddresses {i : Nat} {shapes : List Shape} {address : List Nat} {r : Record}
    (each : ∀ t ∈ shapes, ∀ below, t.LeadsTo below r → below ∈ t.objectAddresses)
    (leads : nodeAmong? i shapes address = some r.toShape) : address ∈ variantAddresses i shapes := by
  induction shapes generalizing i with
  | nil =>
    cases address with
    | nil => cases leads
    | cons j below => simp [nodeAmong?] at leads
  | cons s rest ih =>
    rw [variantAddresses, List.mem_append]
    rcases nodeAmong?_cases leads with ⟨below, rfl, here⟩ | later
    · exact .inl (List.mem_map_of_mem (each s List.mem_cons_self below here))
    · exact .inr (ih (fun t member => each t (List.mem_cons_of_mem s member)) later)

/-! ## Addresses in a shape -/

theorem leadsTo_objectAddresses (s : Shape) : List.Forall₂ s.LeadsTo s.objectAddresses s.preorder := by
  induction s using inside_induction with
  | node s ih =>
    rw [objectAddresses_eq, preorder_eq]
    apply List.rel_append
    · cases object : s.record? with
      | none => exact .nil
      | some r =>
        refine .cons ?_ .nil
        exact congrArg some (record?_eq_some.1 object)
    · refine (leadsTo_variantAddresses ih).imp fun address r leads => ?_
      cases address with
      | nil => cases leads
      | cons i below => rwa [nodeAmong?_inside] at leads

theorem outerFirst_objectAddresses (s : Shape) : OuterFirst s.objectAddresses := by
  induction s using inside_induction with
  | node s ih =>
    rw [objectAddresses_eq]
    refine List.pairwise_append.2 ⟨?_, outerFirst_variantAddresses ih, ?_⟩
    · cases s.record? <;> simp
    · intro first here second later goesOn
      obtain ⟨_, _, rfl⟩ := List.mem_map.1 here
      obtain ⟨j, below, _, rfl⟩ := head_variantAddresses later
      cases List.prefix_nil.1 goesOn

theorem mem_objectAddresses {s : Shape} {address : List Nat} :
    address ∈ s.objectAddresses ↔ ∃ r, s.LeadsTo address r := by
  constructor
  · intro member
    obtain ⟨i, bound, rfl⟩ := List.mem_iff_getElem.1 member
    have objects := leadsTo_objectAddresses s
    exact ⟨_, (List.forall₂_iff_get.1 objects).2 i bound (objects.length_eq ▸ bound)⟩
  · rintro ⟨r, leads⟩
    induction s using inside_induction generalizing address with
    | node s ih =>
      rw [objectAddresses_eq, List.mem_append]
      cases address with
      | nil =>
        left
        rw [record?_eq_some.2 (Option.some.inj leads)]
        simp
      | cons i below =>
        right
        apply mem_variantAddresses fun t member below leads => ih t member leads
        rw [nodeAmong?_inside]
        exact leads

/-! ## The order of declaration -/

/-- The objects of a shape as they are declared, each told by its address. -/
structure DeclaredInOrder (s : Shape) (addresses : List (List Nat)) : Prop where
  discovered : s.records = s.preorder
  objects : List.Forall₂ s.LeadsTo addresses s.declarationOrder
  /-- Every object of the shape has its address in the list, and has it there once. -/
  complete : ∀ address r, s.LeadsTo address r → address ∈ addresses
  once : addresses.Nodup
  /-- What stands inside an object is declared strictly before it. -/
  innerFirst : ∀ (i j : Nat) (outer inner : List Nat), addresses[i]? = some outer →
    addresses[j]? = some inner → outer <+: inner → outer ≠ inner → j < i

theorem declaredInOrder (s : Shape) : s.DeclaredInOrder s.objectAddresses.reverse where
  discovered := records_eq s
  objects := by
    rw [declarationOrder, records_eq, List.forall₂_reverse_iff]
    exact leadsTo_objectAddresses s
  complete address r leads := List.mem_reverse.2 (mem_objectAddresses.2 ⟨r, leads⟩)
  once := by
    rw [List.nodup_reverse]
    refine (outerFirst_objectAddresses s).imp fun {earlier later} apart => ?_
    rintro rfl
    exact apart List.prefix_rfl
  innerFirst i j outer inner first second within other := by
    have apart := List.pairwise_reverse.2 (outerFirst_objectAddresses s)
    obtain ⟨bound, rfl⟩ := List.getElem?_eq_some_iff.1 first
    obtain ⟨bound', rfl⟩ := List.getElem?_eq_some_iff.1 second
    by_contra later
    rcases Nat.eq_or_lt_of_le (Nat.le_of_not_lt later) with rfl | after
    · exact other rfl
    · exact List.pairwise_iff_getElem.1 apart i j bound bound' after within

end JsonShape.Shape
