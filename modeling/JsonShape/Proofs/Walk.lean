import JsonShape.Inference

/-! The walk with frames follows the recursion.

A frame that is run to its end does to the frames around it what the recursion does at its container:
the pending members and elements first, then the container itself.
-/

set_option autoImplicit false

namespace JsonShape.Inference

open Json (Value Member)

def resume (o : Options) (outer : List Frame) (closed : Shape × Progress) : Shape × Progress :=
  match outer with
  | [] => closed
  | next :: outer => run o (next.add closed.1) outer closed.2

/-- A value is walked faithfully when the frame it opens ends as the recursion does. -/
def Faithful (o : Options) (v : Value) : Prop :=
  ∀ path p f opened outer, visit o path v p = (.inr f, opened) →
    run o f outer opened = resume o outer (inferAt o path v p)

theorem inferAt_of_visit {o : Options} {path : Path} {v : Value} {p after : Progress} {s : Shape}
    (visited : visit o path v p = (.inl s, after)) : inferAt o path v p = (s, after) := by
  cases v with
  | string text =>
    simp only [visit, Prod.mk.injEq, Sum.inl.injEq] at visited
    exact Prod.ext visited.1 visited.2
  | _ => simp_all [visit, inferAt]

theorem run_array (o : Options) (path : Path) (next : Nat) (pending : List Value)
    (found : List Shape) (outer : List Frame) (p : Progress)
    (faithful : ∀ v ∈ pending, Faithful o v) :
    run o (.array path next pending found) outer p =
      resume o outer (closeArray path
        (found.reverse ++ (inferElements o path next pending p).1)
        (inferElements o path next pending p).2) := by
  induction pending generalizing next found p with
  | nil =>
    rw [inferElements, List.append_nil]
    cases outer with
    | nil => rw [run, resume]
    | cons around outer => rw [run, resume]
  | cons v rest ih =>
    have later := fun w member => faithful w (List.mem_cons_of_mem v member)
    rw [run, inferElements]
    -- a leaf is found at once, and a container is run to its end before this frame goes on
    split
    · next s after visited =>
      rw [inferAt_of_visit visited, ih _ _ _ later]
      simp
    · next inner opened visited =>
      rw [faithful v List.mem_cons_self _ _ _ _ _ visited, resume, Frame.add, ih _ _ _ later]
      simp

theorem run_object (o : Options) (path : Path) (keys : List Text) (pending : List Member)
    (found : List Shape) (outer : List Frame) (p : Progress)
    (faithful : ∀ m ∈ pending, Faithful o m.2) :
    run o (.object path keys pending found) outer p =
      resume o outer (closeObject o path
        (keys.zip (found.reverse ++ (inferMembers o path pending p).1))
        (inferMembers o path pending p).2) := by
  induction pending generalizing found p with
  | nil =>
    rw [inferMembers, List.append_nil]
    cases outer with
    | nil => rw [run, resume]
    | cons around outer => rw [run, resume]
  | cons m rest ih =>
    obtain ⟨key, v⟩ := m
    have later := fun w member => faithful w (List.mem_cons_of_mem (key, v) member)
    rw [run, inferMembers]
    split
    · next s after visited =>
      rw [inferAt_of_visit visited, ih _ _ later]
      simp
    · next inner opened visited =>
      rw [faithful (key, v) List.mem_cons_self _ _ _ _ _ visited, resume, Frame.add, ih _ _ later]
      simp

theorem faithful (o : Options) (v : Value) : Faithful o v := by
  induction v with
  | array elements ih =>
    intro path p f opened outer visited
    cases visited
    rw [run_array o path 0 elements [] outer p ih, inferAt]
    rfl
  | object members ih =>
    intro path p f opened outer visited
    cases visited
    rw [run_object o path _ members [] outer _ ih, inferAt]
    rfl
  | _ =>
    intro path p f opened outer visited
    simp [visit] at visited

/-- The walk gives the shape and the state that the recursion gives. -/
theorem walk_eq_inferAt (o : Options) (v : Value) (p : Progress) : walk o v p = inferAt o [] v p := by
  rw [walk]
  split
  · next s after visited => exact (inferAt_of_visit visited).symm
  · next frame opened visited => exact faithful o v [] p frame opened [] visited

theorem infer_shape (o : Options) (v : Value) :
    (infer o v).shape = (inferAt o [] v (start o v)).1 := by
  rw [← walk_eq_inferAt]
  rfl

end JsonShape.Inference
