import JsonShape.Shape.Basic

/-! Structural equality of shapes.

Two shapes are structurally equal when they differ at most in the names of objects, in the flags of
properties and in the order of properties. The order of variants counts. One node is compared at a
time and the pairs of children are put on a list of pairs still to be compared.
-/

set_option autoImplicit false

namespace JsonShape

def sameKeys (ps qs : List (Property Shape)) : Bool :=
  ps.all (fun p => (find? qs p.key).isSome) && qs.all (fun q => (find? ps q.key).isSome)

namespace Shape

/-- The pairs of children that must be equal for two nodes to be equal, if the nodes agree. -/
def childPairs? : Shape → Shape → Option (List (Shape × Shape))
  | .string, .string => some []
  | .number, .number => some []
  | .boolean, .boolean => some []
  | .null, .null => some []
  | .date, .date => some []
  | .unknown, .unknown => some []
  | .array a, .array b => some [(a, b)]
  | .union as, .union bs => if as.length = bs.length then some (as.zip bs) else none
  | .object _ ps, .object _ qs =>
    if sameKeys ps qs then
      some (ps.filterMap fun p => (find? qs p.key).map fun q => (p.shape, q.shape))
    else none
  | _, _ => none

def pairsSize (pairs : List (Shape × Shape)) : Nat := sizeAll (pairs.map (·.1))

theorem pairsSize_append (ps qs : List (Shape × Shape)) :
    pairsSize (ps ++ qs) = pairsSize ps + pairsSize qs := by
  simp [pairsSize]

theorem pairsSize_cons (a b : Shape) (rest : List (Shape × Shape)) :
    pairsSize ((a, b) :: rest) = a.size + pairsSize rest := rfl

theorem pairsSize_zip_le (as bs : List Shape) : pairsSize (as.zip bs) ≤ sizeAll as := by
  induction as generalizing bs with
  | nil => exact Nat.le_refl _
  | cons a as ih =>
    cases bs with
    | nil => exact Nat.zero_le _
    | cons b bs =>
      have rest := ih bs
      rw [List.zip_cons_cons, pairsSize_cons, sizeAll]
      omega

theorem pairsSize_filterMap_le (ps qs : List (Property Shape)) :
    pairsSize (ps.filterMap fun p => (find? qs p.key).map fun q => (p.shape, q.shape)) ≤
      sizeProperties ps := by
  induction ps with
  | nil => exact Nat.le_refl _
  | cons p ps ih =>
    rw [List.filterMap_cons, sizeProperties]
    cases find? qs p.key with
    | none => exact Nat.le_trans ih (Nat.le_add_left _ _)
    | some q =>
      simp only [Option.map_some, pairsSize_cons]
      omega

theorem pairsSize_childPairs?_lt {a b : Shape} {pairs : List (Shape × Shape)}
    (found : childPairs? a b = some pairs) : pairsSize pairs < a.size := by
  unfold childPairs? at found
  split at found
  iterate 6 (cases found; exact size_pos _)
  · cases found; simp [pairsSize, sizeAll, size]
  · next as bs =>
    split at found
    · cases found
      have bound := pairsSize_zip_le as bs
      simp only [size]
      omega
    · cases found
  · next ps _ qs =>
    split at found
    · cases found
      have bound := pairsSize_filterMap_le ps qs
      simp only [size]
      omega
    · cases found
  · cases found

def sameAll (pairs : List (Shape × Shape)) : Bool :=
  match pairs with
  | [] => true
  | (a, b) :: rest =>
    match _found : childPairs? a b with
    | some children => sameAll (children ++ rest)
    | none => false
termination_by pairsSize pairs
decreasing_by
  have smaller := pairsSize_childPairs?_lt _found
  rw [pairsSize_append, pairsSize_cons]
  omega

def same (a b : Shape) : Bool := sameAll [(a, b)]

end Shape

end JsonShape
