import JsonShape.Proofs.NormalForm

/-! Forms of shapes.

The form of a shape is what remains when names, flags and the order of properties are forgotten: an object is
then nothing but what stands under each key. Structural equality says that two shapes have one form. It is
decided by working off a list of pairs, and neither the order in which pairs are taken nor whether a pair of
one and the same shape is looked into makes a difference to the answer.
-/

set_option autoImplicit false

namespace JsonShape

inductive Form where
  | string
  | number
  | boolean
  | null
  | date
  | unknown
  | array (element : Form)
  | union (variants : List Form)
  | object (under : Text → Option Form)

namespace Shape

mutual

/-- What remains of the shape when names, flags and the order of properties are forgotten. -/
def form : Shape → Form
  | .string => .string
  | .number => .number
  | .boolean => .boolean
  | .null => .null
  | .date => .date
  | .unknown => .unknown
  | .array element => .array (form element)
  | .union variants => .union (formAll variants)
  | .object _ properties => .object (formUnder properties)

def formAll : List Shape → List Form
  | [] => []
  | s :: rest => form s :: formAll rest

def formUnder : List (Property Shape) → Text → Option Form
  | [], _ => none
  | p :: rest, key => if p.key = key then some (form p.shape) else formUnder rest key

end

theorem formAll_eq (shapes : List Shape) : formAll shapes = shapes.map form := by
  induction shapes with
  | nil => rfl
  | cons s rest ih => rw [formAll, ih, List.map_cons]

theorem formUnder_eq (properties : List (Property Shape)) (key : Text) :
    formUnder properties key = (find? properties key).map (·.shape.form) := by
  induction properties with
  | nil => rfl
  | cons p rest ih =>
    rw [formUnder, ih]
    by_cases here : p.key = key <;> simp [find?, here]

theorem form_array (a b : Shape) : (array a).form = (array b).form ↔ a.form = b.form := by
  rw [form, form, Form.array.injEq]

theorem form_union (as bs : List Shape) :
    (union as).form = (union bs).form ↔ List.Forall₂ (fun a b => a.form = b.form) as bs := by
  rw [form, form, Form.union.injEq, formAll_eq, formAll_eq, ← List.forall₂_eq_eq_eq,
    List.forall₂_map_left_iff, List.forall₂_map_right_iff]

theorem form_object (n m : Text) (ps qs : List (Property Shape)) :
    (object n ps).form = (object m qs).form ↔
      ∀ key, (find? ps key).map (·.shape.form) = (find? qs key).map (·.shape.form) := by
  rw [form, form, Form.object.injEq, funext_iff]
  simp only [formUnder_eq]

/-- Equal shapes have one form, however often keys are listed. -/
theorem form_eq_of_same {a b : Shape} (equal : same a b) : a.form = b.form := by
  have nodes := childPairs?_isSome_of_same equal
  induction a generalizing b with
  | array element ih =>
    cases b with
    | array other =>
      have inner := (same_array element other).1 equal
      exact (form_array element other).2 (ih inner (childPairs?_isSome_of_same inner))
    | _ => cases nodes
  | union variants ih =>
    cases b with
    | union others =>
      have each := (List.forall₂_and_left _ _).2 ⟨ih, (same_union variants others).1 equal⟩
      refine (form_union variants others).2 (each.imp fun s t both => ?_)
      exact both.1 both.2 (childPairs?_isSome_of_same both.2)
    | _ => cases nodes
  | object name ps ih =>
    cases b with
    | object other qs =>
      obtain ⟨agree, children⟩ := (same_object name other ps qs).1 equal
      refine (form_object name other ps qs).2 fun key => ?_
      have declared := find?_isSome_of_sameKeys agree key
      cases first : find? ps key with
      | none =>
        cases second : find? qs key with
        | none => rfl
        | some q => rw [first, second] at declared; cases declared.2 rfl
      | some p =>
        cases second : find? qs key with
        | none => rw [first, second] at declared; cases declared.1 rfl
        | some q =>
          have member := mem_of_find? first
          have inner := children p member q (find?_key first ▸ second)
          exact congrArg some (ih p member inner (childPairs?_isSome_of_same inner))
    | _ => cases nodes
  | _ => cases b <;> first | rfl | cases nodes

/-- Where keys are listed once, shapes with one form are equal. -/
theorem same_of_form_eq {a b : Shape} (keyed : a.keysDistinct) (equal : a.form = b.form) : same a b := by
  induction a generalizing b with
  | array element ih =>
    cases b with
    | array other => exact (same_array element other).2 (ih keyed ((form_array element other).1 equal))
    | _ => cases equal
  | union variants ih =>
    cases b with
    | union others =>
      have known (s : Shape) (member : s ∈ variants) (t : Shape) (inner : s.form = t.form) : same s t :=
        ih s member (keysDistinct_union.1 keyed s member) inner
      have each := (List.forall₂_and_left _ _).2 ⟨known, (form_union variants others).1 equal⟩
      exact (same_union variants others).2 (each.imp fun s t both => both.1 t both.2)
    | _ => cases equal
  | object name ps ih =>
    cases b with
    | object other qs =>
      obtain ⟨once, inner⟩ := keysDistinct_object.1 keyed
      have under := (form_object name other ps qs).1 equal
      refine (same_object name other ps qs).2 ⟨sameKeys_iff.2 fun key => ?_, fun p member q found => ?_⟩
      · have declared := congrArg Option.isSome (under key)
        rw [Option.isSome_map, Option.isSome_map] at declared
        rw [← find?_isSome_iff, ← find?_isSome_iff, declared]
      -- no other property has the key, so it is this one that is found under it
      · have here := under p.key
        rw [find?_of_mem once member, found] at here
        exact ih p member (inner p member) (Option.some.inj here)
    | _ => cases equal
  | _ =>
    cases b <;> cases equal
    exact same_refl rfl

theorem same_iff_form {a b : Shape} (keyed : a.keysDistinct) : same a b ↔ a.form = b.form :=
  ⟨form_eq_of_same, same_of_form_eq keyed⟩

/-! ## The comparison -/

theorem pairsSize_perm {pairs others : List (Shape × Shape)} (perm : pairs.Perm others) :
    pairsSize pairs = pairsSize others := by
  induction perm with
  | nil => rfl
  | cons pair _ ih => rw [pairsSize_cons, pairsSize_cons, ih]
  | swap pair other rest => rw [pairsSize_cons, pairsSize_cons, pairsSize_cons, pairsSize_cons, Nat.add_left_comm]
  | trans _ _ first second => exact first.trans second

theorem sameAll_perm {pairs others : List (Shape × Shape)} (perm : pairs.Perm others) :
    sameAll pairs = sameAll others := by
  rw [Bool.eq_iff_iff, sameAll_iff, sameAll_iff]
  exact forall_congr' fun pair => by rw [perm.mem_iff]

/-- What one turn makes of the pairs still to be compared: other pairs, or the answer. Any pair may be taken,
and the pairs of its children may be put anywhere. If it is one and the same shape twice it may be passed
over. -/
inductive Turn (pending : List (Shape × Shape)) : List (Shape × Shape) ⊕ Bool → Prop where
  | spent (none : pending = []) : Turn pending (.inr true)
  | shared {a : Shape} {rest : List (Shape × Shape)} (taken : pending.Perm ((a, a) :: rest)) :
      Turn pending (.inl rest)
  | agree {a b : Shape} {rest children next : List (Shape × Shape)} (taken : pending.Perm ((a, b) :: rest))
      (found : childPairs? a b = some children) (placed : next.Perm (children ++ rest)) :
      Turn pending (.inl next)
  | differ {a b : Shape} {rest : List (Shape × Shape)} (taken : pending.Perm ((a, b) :: rest))
      (missing : childPairs? a b = none) : Turn pending (.inr false)

inductive Reaches (a b : Shape) : Nat → List (Shape × Shape) → Prop where
  | start : Reaches a b 0 [(a, b)]
  | next {turns : Nat} {pending next : List (Shape × Shape)} (before : Reaches a b turns pending)
      (turn : Turn pending (.inl next)) : Reaches a b (turns + 1) next

theorem exists_turn (pending : List (Shape × Shape)) : ∃ next, Turn pending next := by
  match pending with
  | [] => exact ⟨_, .spent rfl⟩
  | (a, b) :: rest =>
    cases found : childPairs? a b with
    | none => exact ⟨_, .differ (.refl _) found⟩
    | some children => exact ⟨_, .agree (.refl _) found (.refl _)⟩

theorem Turn.pairsSize_lt {pending next : List (Shape × Shape)} (turn : Turn pending (.inl next)) :
    pairsSize next < pairsSize pending := by
  cases turn with
  | @shared a _ taken =>
    have positive := size_pos a
    rw [pairsSize_perm taken, pairsSize_cons]
    omega
  | agree taken found placed =>
    have smaller := pairsSize_childPairs?_lt found
    rw [pairsSize_perm taken, pairsSize_perm placed, pairsSize_append, pairsSize_cons]
    omega

theorem fst_mem_inside {a b : Shape} {children : List (Shape × Shape)}
    (found : childPairs? a b = some children) : ∀ pair ∈ children, pair.1 ∈ a.inside := by
  unfold childPairs? at found
  split at found
  iterate 6 (cases found; exact nofun)
  · cases found
    exact List.forall_mem_singleton.2 List.mem_cons_self
  · split at found <;> cases found
    exact fun pair member => (List.of_mem_zip member).1
  · split at found <;> cases found
    intro pair member
    obtain ⟨p, listed, paired⟩ := List.mem_filterMap.1 member
    obtain ⟨q, _, rfl⟩ := Option.map_eq_some_iff.1 paired
    exact List.mem_map_of_mem listed
  · cases found

def Keyed (pending : List (Shape × Shape)) : Prop := ∀ pair ∈ pending, pair.1.keysDistinct

/-- The answer stays the same from turn to turn. -/
theorem Turn.sameAll_eq {pending next : List (Shape × Shape)} (keyed : Keyed pending)
    (turn : Turn pending (.inl next)) : Keyed next ∧ sameAll next = sameAll pending := by
  cases turn with
  | @shared a _ taken =>
    have listed : ∀ pair ∈ (a, a) :: next, pair.1.keysDistinct :=
      fun pair member => keyed pair (taken.mem_iff.2 member)
    obtain ⟨here, later⟩ := List.forall_mem_cons.1 listed
    refine ⟨later, ?_⟩
    rw [sameAll_perm taken, sameAll_cons, same_refl here, Bool.true_and]
  | @agree a b rest children _ taken found placed =>
    have listed : ∀ pair ∈ (a, b) :: rest, pair.1.keysDistinct :=
      fun pair member => keyed pair (taken.mem_iff.2 member)
    obtain ⟨here, later⟩ := List.forall_mem_cons.1 listed
    have inner : ∀ pair ∈ children, pair.1.keysDistinct :=
      fun pair member => keysDistinct_inside here _ (fst_mem_inside found pair member)
    have equal : same a b = sameAll children := by
      rw [Bool.eq_iff_iff, same_iff, found, sameAll_iff]
      simp
    constructor
    · intro pair member
      exact (List.forall_mem_append.2 ⟨inner, later⟩) pair (placed.mem_iff.1 member)
    · rw [sameAll_perm taken, sameAll_perm placed, sameAll_append, sameAll_cons, equal]

theorem Turn.answer_eq {pending : List (Shape × Shape)} {answer : Bool} (turn : Turn pending (.inr answer)) :
    answer = sameAll pending := by
  cases turn with
  | spent none => rw [none, sameAll]
  | @differ a b rest taken missing =>
    have unequal : same a b = false := by
      rw [Bool.eq_false_iff, Ne, same_iff, missing]
      simp
    rw [sameAll_perm taken, sameAll_cons, unequal, Bool.false_and]

/-- The comparison of two shapes ends with an answer, and with no other, whichever turns it takes. -/
structure Decides (a b : Shape) (answer : Bool) : Prop where
  bound : ∀ turns pending, Reaches a b turns pending → turns + pairsSize pending ≤ a.size
  goesOn : ∀ turns pending, Reaches a b turns pending → ∃ next, Turn pending next
  answers : ∀ turns pending found, Reaches a b turns pending → Turn pending (.inr found) → found = answer

theorem decides_same {a b : Shape} (keyed : a.keysDistinct) : Decides a b (same a b) := by
  have kept {turns : Nat} {pending : List (Shape × Shape)} (reached : Reaches a b turns pending) :
      Keyed pending ∧ sameAll pending = same a b := by
    induction reached with
    | start => exact ⟨List.forall_mem_singleton.2 keyed, rfl⟩
    | next before turn ih =>
      obtain ⟨keyed, same⟩ := turn.sameAll_eq ih.1
      exact ⟨keyed, same.trans ih.2⟩
  constructor
  case bound =>
    intro turns pending reached
    induction reached with
    | start => simp [pairsSize, sizeAll]
    | next before turn ih =>
      have less := turn.pairsSize_lt
      omega
  case goesOn => exact fun turns pending _ => exists_turn pending
  case answers => exact fun turns pending found reached turn => turn.answer_eq.trans (kept reached).2

/-! ## The laws -/

theorem equal_of_same {shapes others : List Shape} (keyed : ∀ s ∈ shapes ++ others, s.keysDistinct)
    (each : List.Forall₂ (fun s t => same s t) shapes others) : List.Forall₂ Equal shapes others := by
  obtain ⟨first, second⟩ := List.forall_mem_append.1 keyed
  refine List.forall₂_iff_zip.2 ⟨each.length_eq, fun {s t} paired => ?_⟩
  have among := List.of_mem_zip paired
  exact ⟨first s among.1, second t among.2, List.forall₂_zip each paired⟩

/-- What equality says of two shapes, that it is an equivalence, and that merging respects it. -/
structure EqualityLaws (a b c : Shape) (shapes others : List Shape) : Prop where
  decides : Decides a b (same a b)
  form : same a b ↔ a.form = b.form
  refl : same a a
  symm : same a b → same b a
  trans : same a b → same b c → same a c
  merge : List.Forall₂ (fun s t => same s t) shapes others → same (merge shapes) (merge others)

theorem equalityLaws_of_keysDistinct {a b c : Shape} {shapes others : List Shape}
    (keyed : ∀ s ∈ [a, b, c], s.keysDistinct) (keyed' : ∀ s ∈ shapes ++ others, s.keysDistinct) :
    EqualityLaws a b c shapes others := by
  rw [List.forall_mem_cons, List.forall_mem_cons, List.forall_mem_singleton] at keyed
  obtain ⟨first, second, third⟩ := keyed
  constructor
  case decides => exact decides_same first
  case form => exact same_iff_form first
  -- one form is as good as the other
  case refl => exact (same_iff_form first).2 rfl
  case symm =>
    rw [same_iff_form first, same_iff_form second]
    exact Eq.symm
  case trans =>
    rw [same_iff_form first, same_iff_form second, same_iff_form first]
    exact Eq.trans
  case merge => exact fun each => (respected_equal.merge (equal_of_same keyed' each)).same

def user : Shape :=
  .object "User" [⟨"id", .number, false, false⟩, ⟨"tags", .array (.union [.null, .string]), true, false⟩]

def renamedUser : Shape :=
  .object "Member" [⟨"tags", .array (.union [.null, .string]), false, true⟩, ⟨"id", .number, true, false⟩]

def turnedUser : Shape :=
  .object "User" [⟨"id", .number, false, false⟩, ⟨"tags", .array (.union [.string, .null]), true, false⟩]

theorem equalityLaws_of_keysDistinct_user :
    (∀ s ∈ [user, renamedUser, turnedUser], s.keysDistinct) ∧
      (∀ s ∈ [user, .union [renamedUser, .date]] ++ [renamedUser, .union [user, .date]], s.keysDistinct) ∧
      same user renamedUser ∧ ¬ same user turnedUser ∧
      EqualityLaws user renamedUser turnedUser [user, .union [renamedUser, .date]]
        [renamedUser, .union [user, .date]] := by
  have keyed : ∀ s ∈ [user, renamedUser, turnedUser], s.keysDistinct := by decide
  have keyed' : ∀ s ∈ [user, .union [renamedUser, .date]] ++ [renamedUser, .union [user, .date]],
      s.keysDistinct := by decide
  have equal : same user renamedUser = true := by cbv
  have unequal : same user turnedUser = false := by cbv
  exact ⟨keyed, keyed', equal, by rw [unequal]; exact Bool.false_ne_true,
    equalityLaws_of_keysDistinct keyed keyed'⟩

end Shape

end JsonShape
