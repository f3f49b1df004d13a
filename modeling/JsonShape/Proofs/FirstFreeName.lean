import JsonShape.Proofs.Naming
import Mathlib.Data.List.Induction

/-! The first free number.

An allocator keeps a counter for every base and the set of names it has given away, and the two may be out
of step: a numbered name of one base may be the bare name of another. As long as no name is reserved after
names were allocated, all numbers of a base up to its counter are taken. So the search, which starts behind
the counter, finds the least number that is free.
-/

set_option autoImplicit false

namespace JsonShape.Allocator

inductive Call where
  | allocate (keys : List Text)
  | reserve (name : Text)
  | reset

def Call.isReset : Call → Bool
  | .reset => true
  | _ => false

/-- An allocator with the names that were returned or reserved since it was last reset, newest first. -/
structure History where
  allocator : Allocator
  names : List Text := []

namespace History

def step (h : History) : Call → History
  | .allocate keys => ⟨(h.allocator.allocate keys).2, (h.allocator.allocate keys).1 :: h.names⟩
  | .reserve name => ⟨h.allocator.reserve name, name :: h.names⟩
  | .reset => ⟨h.allocator.reset, []⟩

def after (rootName : Text) (calls : List Call) : History :=
  calls.foldl step { allocator := empty rootName }

end History

def sinceReset (calls : List Call) : List Call := (calls.reverse.takeWhile (!·.isReset)).reverse

/-- Since the last reset at most one name was reserved, and before any was allocated. -/
def ReservesFirst (calls : List Call) : Prop :=
  ∃ (reserved : List Text) (allocated : List (List Text)), reserved.length ≤ 1 ∧
    sinceReset calls = reserved.map .reserve ++ allocated.map .allocate

/-- The search for a free name, number by number, ends at the last number. -/
inductive Search (a : Allocator) (base : Text) : Nat → Nat → Prop where
  | free {count : Nat} (free : numbered base count ∉ a.produced) : Search a base count count
  | taken {count last : Nat} (taken : numbered base count ∈ a.produced)
      (later : Search a base (count + 1) last) : Search a base count last

/-- The Pascal case of the keys, or the root name if they spell nothing, behind an underscore if it starts
with a digit. -/
def baseOf (rootName : Text) (keys : List Text) : Text :=
  match keys.flatMap Text.pascal with
  | [] => guarded rootName
  | spelled => guarded spelled

/-- A name is the base if the base is free, and else the base with the least free number from two on. -/
structure FirstFree (names : List Text) (base name : Text) : Prop where
  bare : base ∉ names → name = base
  numbered : base ∈ names → ∃ n, 2 ≤ n ∧ name = base ++ Text.ofNat n ∧ base ++ Text.ofNat n ∉ names ∧
    ∀ m, 2 ≤ m → m < n → base ++ Text.ofNat m ∈ names

theorem baseName_eq (a : Allocator) (keys : List Text) : a.baseName keys = baseOf a.rootName keys := by
  rw [baseName, baseOf]
  cases keys.flatMap Text.pascal <;> rfl

/-! ## The search -/

theorem search_of_taken (a : Allocator) (base : Text) {count last : Nat} (before : count ≤ last)
    (taken : ∀ n, count ≤ n → n < last → numbered base n ∈ a.produced)
    (free : numbered base last ∉ a.produced) : Search a base count last := by
  obtain ⟨steps, rfl⟩ := Nat.exists_eq_add_of_le before
  clear before
  induction steps generalizing count with
  | zero => exact .free free
  | succ steps ih =>
    refine .taken (taken count (Nat.le_refl _) (by omega)) ?_
    rw [Nat.add_comm steps 1, ← Nat.add_assoc] at taken free ⊢
    exact ih (fun n behind => taken n (by omega)) free

/-- The number of a name is where the search behind the counter ends. -/
theorem allocate_search (a : Allocator) (keys : List Text) :
    ∃ n, Search a (a.baseName keys) (a.used.getD (a.baseName keys) 0 + 1) n ∧
      (a.allocate keys).1 = numbered (a.baseName keys) n := by
  obtain ⟨behind, free, taken⟩ :=
    a.freeCount_spec (a.baseName keys) (a.used.getD (a.baseName keys) 0 + 1)
  exact ⟨_, search_of_taken a _ behind taken free, rfl⟩

/-! ## Histories -/

namespace History

theorem after_concat (rootName : Text) (calls : List Call) (call : Call) :
    after rootName (calls ++ [call]) = (after rootName calls).step call := by
  rw [after, List.foldl_append]
  rfl

theorem rootName_after (rootName : Text) (calls : List Call) :
    (after rootName calls).allocator.rootName = rootName := by
  induction calls using List.reverseRecOn with
  | nil => rfl
  | append_singleton calls call ih =>
    rw [after_concat]
    cases call <;> exact ih

theorem mem_produced_after {rootName name : Text} {calls : List Call} :
    name ∈ (after rootName calls).allocator.produced ↔ name ∈ (after rootName calls).names := by
  induction calls using List.reverseRecOn with
  | nil => simp [after, empty]
  | append_singleton calls call ih =>
    rw [after_concat]
    cases call with
    | allocate keys =>
      rw [step, List.mem_cons, ← ih]
      exact mem_produced_allocate _
    | reserve reserved =>
      rw [step, List.mem_cons, ← ih]
      exact mem_produced_reserve _
    | reset => simp [step, reset, empty]

theorem after_sinceReset (rootName : Text) (calls : List Call) :
    after rootName (sinceReset calls) = after rootName calls := by
  induction calls using List.reverseRecOn with
  | nil => rfl
  | append_singleton calls call ih =>
    rw [after_concat, sinceReset, List.reverse_concat, List.takeWhile_cons]
    cases call with
    | reset =>
      change after rootName [] = ⟨empty (after rootName calls).allocator.rootName, []⟩
      rw [rootName_after]
      rfl
    | allocate keys =>
      rw [← ih, ← after_concat, sinceReset]
      simp [Call.isReset]
    | reserve name =>
      rw [← ih, ← after_concat, sinceReset]
      simp [Call.isReset]

end History

/-! ## Counters and names -/

/-- All numbers of a base up to its counter are taken. -/
def CountsTaken (a : Allocator) : Prop :=
  ∀ base n, 1 ≤ n → n ≤ a.used.getD base 0 → numbered base n ∈ a.produced

theorem getD_insert (used : Std.TreeMap Text Nat) (key base : Text) (count : Nat) :
    (used.insert key count).getD base 0 = if base = key then count else used.getD base 0 := by
  rw [Std.TreeMap.getD_insert]
  by_cases same : base = key
  · rw [if_pos same, if_pos (Std.LawfulEqCmp.compare_eq_iff_eq.2 same.symm)]
  · rw [if_neg same, if_neg fun equal => same (Std.LawfulEqCmp.compare_eq_iff_eq.1 equal).symm]

theorem getD_used_allocate (a : Allocator) (keys : List Text) (base : Text) :
    (a.allocate keys).2.used.getD base 0 =
      if base = a.baseName keys then a.freeCount (a.baseName keys) (a.used.getD (a.baseName keys) 0 + 1)
      else a.used.getD base 0 :=
  getD_insert a.used (a.baseName keys) base _

theorem getD_used_reserve (a : Allocator) (name base : Text) :
    (a.reserve name).used.getD base 0 =
      if base = name then a.used.getD name 0 + 1 else a.used.getD base 0 :=
  getD_insert a.used name base _

/-- The search only passes over numbers that are taken, and takes the one it finds. -/
theorem CountsTaken.allocate {a : Allocator} (counts : a.CountsTaken) (keys : List Text) :
    (a.allocate keys).2.CountsTaken := by
  obtain ⟨_, _, passed⟩ := a.freeCount_spec (a.baseName keys) (a.used.getD (a.baseName keys) 0 + 1)
  intro base n positive within
  rw [getD_used_allocate] at within
  rw [mem_produced_allocate]
  split at within
  · next same =>
    subst same
    by_cases before : n ≤ a.used.getD (a.baseName keys) 0
    · exact .inr (counts _ n positive before)
    · rcases Nat.eq_or_lt_of_le within with found | earlier
      · left
        rw [found]
        rfl
      · exact .inr (passed n (by omega) earlier)
  · exact .inr (counts base n positive within)

/-- A name may be reserved as long as its own counter has not begun. -/
theorem CountsTaken.reserve {a : Allocator} (counts : a.CountsTaken) {name : Text}
    (unused : a.used.getD name 0 = 0) : (a.reserve name).CountsTaken := by
  intro base n positive within
  rw [getD_used_reserve] at within
  rw [mem_produced_reserve]
  split at within
  · next same =>
    subst same
    have first : n = 1 := by omega
    left
    rw [first, Allocator.numbered, if_pos rfl]
  · exact .inr (counts base n positive within)

theorem countsTaken_empty (rootName : Text) : (empty rootName).CountsTaken := by
  intro base n positive within
  have unused : (empty rootName).used.getD base 0 = 0 := Std.TreeMap.getD_emptyc
  omega

theorem countsTaken_after {rootName : Text} {calls : List Call} (first : ReservesFirst calls) :
    (History.after rootName calls).allocator.CountsTaken := by
  obtain ⟨reserved, allocated, once, recent⟩ := first
  rw [← History.after_sinceReset, recent, History.after, List.foldl_append]
  have opened : (List.foldl History.step { allocator := empty rootName }
      (reserved.map .reserve)).allocator.CountsTaken := by
    match reserved, once with
    | [], _ => exact countsTaken_empty rootName
    | [name], _ => exact (countsTaken_empty rootName).reserve Std.TreeMap.getD_emptyc
  generalize List.foldl History.step _ (reserved.map .reserve) = h at opened ⊢
  clear recent
  induction allocated generalizing h with
  | nil => exact opened
  | cons keys rest ih => exact ih (h.step (.allocate keys)) (opened.allocate keys)

/-- Where counters and names are in step, the number found is the least that is free. -/
theorem CountsTaken.firstFree {a : Allocator} (counts : a.CountsTaken) {names : List Text}
    (produced : ∀ name, name ∈ a.produced ↔ name ∈ names) (keys : List Text) :
    FirstFree names (a.baseName keys) (a.allocate keys).1 := by
  obtain ⟨behind, free, passed⟩ :=
    a.freeCount_spec (a.baseName keys) (a.used.getD (a.baseName keys) 0 + 1)
  have name : (a.allocate keys).1 =
      Allocator.numbered (a.baseName keys)
        (a.freeCount (a.baseName keys) (a.used.getD (a.baseName keys) 0 + 1)) := rfl
  rw [name]
  generalize a.freeCount (a.baseName keys) (a.used.getD (a.baseName keys) 0 + 1) = count at *
  have below (n : Nat) (positive : 1 ≤ n) (less : n < count) :
      Allocator.numbered (a.baseName keys) n ∈ names := by
    rw [← produced]
    by_cases before : n ≤ a.used.getD (a.baseName keys) 0
    · exact counts _ n positive before
    · exact passed n (by omega) less
  rw [produced] at free
  have several (n : Nat) (more : 2 ≤ n) :
      Allocator.numbered (a.baseName keys) n = a.baseName keys ++ Text.ofNat n :=
    if_neg (by omega)
  constructor
  · intro unused
    -- a later number would have passed over the bare name
    have first : count = 1 := by
      by_contra other
      exact unused (below 1 (Nat.le_refl 1) (by omega))
    rw [first, Allocator.numbered, if_pos rfl]
  · intro used
    have more : 2 ≤ count := by
      by_contra less
      have first : count = 1 := by omega
      rw [first, Allocator.numbered, if_pos rfl] at free
      exact free used
    rw [several count more] at free ⊢
    refine ⟨count, more, rfl, free, fun m two less => ?_⟩
    rw [← several m two]
    exact below m (by omega) less

/-! ## The name for some keys -/

structure Allocated (rootName : Text) (calls : List Call) (keys : List Text) (name : Text) : Prop where
  /-- The name was neither returned nor reserved since the last reset. -/
  fresh : name ∉ (History.after rootName calls).names
  /-- The search for its number starts behind the counter of its base, and comes to an end. -/
  ends : ∃ last, Search (History.after rootName calls).allocator (baseOf rootName keys)
      ((History.after rootName calls).allocator.used.getD (baseOf rootName keys) 0 + 1) last ∧
    name = numbered (baseOf rootName keys) last
  firstFree : ReservesFirst calls →
    FirstFree (History.after rootName calls).names (baseOf rootName keys) name

/-- Whatever was called before, the name is free, and it has the least free number if no name was reserved
late. -/
theorem allocate_allocated (rootName : Text) (calls : List Call) (keys : List Text) :
    Allocated rootName calls keys ((History.after rootName calls).allocator.allocate keys).1 := by
  have base : (History.after rootName calls).allocator.baseName keys = baseOf rootName keys := by
    rw [baseName_eq, History.rootName_after]
  constructor
  · rw [← History.mem_produced_after]
    exact allocate_free _ keys
  · obtain ⟨last, search, name⟩ := allocate_search (History.after rootName calls).allocator keys
    rw [base] at search name
    exact ⟨last, search, name⟩
  · intro first
    rw [← base]
    exact (countsTaken_after first).firstFree (fun _ => History.mem_produced_after) keys

set_option maxRecDepth 4000 in
example :
    ((History.after "Root" [.reserve "Root", .allocate ["user"], .allocate ["user2"]]).allocator.allocate
      ["user"]).1 = "User3" := by decide

end JsonShape.Allocator
