import JsonShape.Naming.Allocator
import Mathlib.Data.List.Perm.Subperm
import Mathlib.Data.List.Nodup

/-! Names are free when they are produced.

The numbers of a base give different names, so among one more numbers than there are names produced one is
free. The bound on the search is never what ends it.
-/

set_option autoImplicit false

namespace JsonShape

namespace Text

theorem ofString_injective : Function.Injective ofString := by
  intro s t same
  have chars : Function.Injective CodePoint.ofChar := fun _ _ => CodePoint.ofChar_inj.1
  exact String.toList_inj.1 (chars.list_map same)

theorem ofNat_injective : Function.Injective ofNat := by
  intro m n same
  have digits := congrArg String.toList (ofString_injective same)
  rw [Nat.toList_repr, Nat.toList_repr] at digits
  -- reading the digits as a number gives the number back
  have numbers := congrArg (Nat.ofDigitChars 10 · 0) digits
  simpa using numbers

theorem ofNat_ne_nil (n : Nat) : ofNat n ≠ [] := by
  intro empty
  rw [ofNat, ofString, List.map_eq_nil_iff, String.toList_eq_nil_iff] at empty
  exact Nat.repr_ne_empty empty

end Text

namespace Allocator

theorem numbered_injective (base : Text) : Function.Injective (numbered base) := by
  intro m n same
  unfold numbered at same
  split at same <;> split at same
  · omega
  · exact absurd (List.self_eq_append_right.1 same) (Text.ofNat_ne_nil n)
  · exact absurd (List.self_eq_append_right.1 same.symm) (Text.ofNat_ne_nil m)
  · exact Text.ofNat_injective (List.append_cancel_left same)

/-! ## The search -/

variable (a : Allocator) (base : Text)

/-- The search passes over names that were produced, and stops at a free one unless it runs out. -/
theorem searchFrom_spec (fuel count : Nat) :
    count ≤ a.searchFrom base fuel count ∧ a.searchFrom base fuel count ≤ count + fuel ∧
      (∀ n, count ≤ n → n < a.searchFrom base fuel count → numbered base n ∈ a.produced) ∧
      (a.searchFrom base fuel count < count + fuel →
        numbered base (a.searchFrom base fuel count) ∉ a.produced) := by
  induction fuel generalizing count with
  | zero =>
    simp only [searchFrom]
    refine ⟨Nat.le_refl _, Nat.le_refl _, ?_, ?_⟩ <;> omega
  | succ fuel ih =>
    rw [searchFrom]
    obtain ⟨above, below, passed, free⟩ := ih (count + 1)
    split
    · next taken =>
      refine ⟨by omega, by omega, ?_, ?_⟩
      · intro n from_ before
        by_cases here : n = count
        · rw [here]
          exact taken
        · exact passed n (by omega) before
      · intro within
        apply free
        omega
    · next untaken =>
      refine ⟨Nat.le_refl _, by omega, ?_, ?_⟩
      · omega
      · intro _ taken
        exact untaken taken

/-- No more numbers of a base in a row are taken than names were produced. -/
theorem row_le_size (count length : Nat)
    (taken : ∀ n, count ≤ n → n < count + length → numbered base n ∈ a.produced) :
    length ≤ a.produced.size := by
  have distinct : ((List.range' count length).map (numbered base)).Nodup :=
    List.Nodup.map (numbered_injective base) List.nodup_range'
  have among : (List.range' count length).map (numbered base) ⊆ a.produced.toList := by
    intro name member
    obtain ⟨n, inRow, rfl⟩ := List.mem_map.1 member
    obtain ⟨from_, before⟩ := List.mem_range'_1.1 inRow
    exact Std.TreeSet.mem_toList.2 (taken n from_ before)
  have bound := (List.subperm_of_subset distinct among).length_le
  simpa using bound

theorem freeCount_spec (count : Nat) :
    count ≤ a.freeCount base count ∧ numbered base (a.freeCount base count) ∉ a.produced ∧
      ∀ n, count ≤ n → n < a.freeCount base count → numbered base n ∈ a.produced := by
  obtain ⟨above, below, passed, free⟩ := a.searchFrom_spec base (a.produced.size + 1) count
  refine ⟨above, free ?_, passed⟩
  -- had the search run out, it would have passed one name too many
  by_contra exhausted
  have row := a.row_le_size base count (a.produced.size + 1) fun n from_ before =>
    passed n from_ (by omega)
  omega

/-! ## Names drawn from an allocator -/

theorem allocate_free (keys : List Text) : (a.allocate keys).1 ∉ a.produced :=
  (a.freeCount_spec _ _).2.1

theorem mem_produced_allocate {name : Text} {keys : List Text} :
    name ∈ (a.allocate keys).2.produced ↔ name = (a.allocate keys).1 ∨ name ∈ a.produced := by
  rw [allocate, Std.TreeSet.mem_insert, Std.LawfulEqCmp.compare_eq_iff_eq]
  exact or_congr_left eq_comm

theorem mem_produced_reserve {name reserved : Text} :
    name ∈ (a.reserve reserved).produced ↔ name = reserved ∨ name ∈ a.produced := by
  rw [reserve, Std.TreeSet.mem_insert, Std.LawfulEqCmp.compare_eq_iff_eq]
  exact or_congr_left eq_comm

/-- Names that were produced between two states of an allocator. Others may have been produced too. -/
structure Draws (before after : Allocator) (names : List Text) : Prop where
  nodup : names.Nodup
  free : ∀ name ∈ names, name ∉ before.produced
  taken : ∀ name ∈ names, name ∈ after.produced
  grows : ∀ name ∈ before.produced, name ∈ after.produced

theorem draws_nil : Draws a a [] where
  nodup := List.nodup_nil
  free := fun _ member => absurd member List.not_mem_nil
  taken := fun _ member => absurd member List.not_mem_nil
  grows := fun _ before => before

theorem draws_allocate (keys : List Text) : Draws a (a.allocate keys).2 [(a.allocate keys).1] where
  nodup := List.nodup_singleton _
  free := by
    intro name member
    rw [List.mem_singleton.1 member]
    exact a.allocate_free keys
  taken := fun _ member => a.mem_produced_allocate.2 (.inl (List.mem_singleton.1 member))
  grows := fun _ before => a.mem_produced_allocate.2 (.inr before)

variable {a} {b c : Allocator} {first second : List Text}

theorem Draws.append (draws : Draws a b first) (more : Draws b c second) :
    Draws a c (first ++ second) where
  nodup := by
    refine List.nodup_append'.2 ⟨draws.nodup, more.nodup, ?_⟩
    intro name early late
    exact more.free name late (draws.taken name early)
  free := by
    intro name member before
    rcases List.mem_append.1 member with early | late
    · exact draws.free name early before
    · exact more.free name late (draws.grows name before)
  taken := by
    intro name member
    rcases List.mem_append.1 member with early | late
    · exact more.grows name (draws.taken name early)
    · exact more.taken name late
  grows := fun name before => more.grows name (draws.grows name before)

theorem Draws.subperm (draws : Draws a b first) (fewer : second.Subperm first) : Draws a b second where
  nodup := by
    obtain ⟨kept, reordered, sublist⟩ := fewer
    exact reordered.nodup_iff.1 (draws.nodup.sublist sublist)
  free := fun name member => draws.free name (fewer.subset member)
  taken := fun name member => draws.taken name (fewer.subset member)
  grows := draws.grows

end Allocator

end JsonShape
