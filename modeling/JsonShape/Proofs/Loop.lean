import JsonShape.Proofs.Observations

/-! The walk as a loop.

One turn of the loop visits one value or closes one container. The loop takes two turns for every
container and one for every leaf, and then it has found what the recursion finds, with the same names, the
same diagnostics in the same order and the same allocator.
-/

set_option autoImplicit false

namespace JsonShape.Inference

open Json (Value Member)

structure Loop where
  innermost : Frame
  outer : List Frame
  progress : Progress

namespace Loop

def work (l : Loop) : Nat := l.innermost.work + stackWork l.outer

def run (o : Options) (l : Loop) : Shape × Progress :=
  Inference.run o l.innermost l.outer l.progress

def leave (outer : List Frame) (closed : Shape × Progress) : Loop ⊕ (Shape × Progress) :=
  match outer with
  | [] => .inr closed
  | next :: outer => .inl ⟨next.add closed.1, outer, closed.2⟩

def enter (frame : Frame) (outer : List Frame) (visited : (Shape ⊕ Frame) × Progress) : Loop :=
  match visited with
  | (.inl s, p) => ⟨frame.add s, outer, p⟩
  | (.inr inner, p) => ⟨inner, frame :: outer, p⟩

/-- One turn: visit the next value of the innermost container, or close it if there is none. -/
def turn (o : Options) (l : Loop) : Loop ⊕ (Shape × Progress) :=
  match l.innermost with
  | .array path next (v :: pending) found =>
    .inl (enter (.array path (next + 1) pending found) l.outer
      (visit o (path ++ [.index next]) v l.progress))
  | .object path keys ((key, v) :: pending) found =>
    .inl (enter (.object path keys pending found) l.outer (visit o (path ++ [.key key]) v l.progress))
  | .array path _ [] found => leave l.outer (closeArray path found.reverse l.progress)
  | .object path keys [] found => leave l.outer (closeObject o path (keys.zip found.reverse) l.progress)

/-- The loop ends with a result after exactly so many turns. -/
inductive Ends (o : Options) : Loop → Nat → Shape × Progress → Prop where
  | last {l : Loop} {result : Shape × Progress} (ends : l.turn o = .inr result) : Ends o l 1 result
  | next {l after : Loop} {turns : Nat} {result : Shape × Progress} (goesOn : l.turn o = .inl after)
      (rest : Ends o after turns result) : Ends o l (turns + 1) result

theorem Ends.unique {o : Options} {l : Loop} {m n : Nat} {first second : Shape × Progress}
    (ends : Ends o l m first) (ends' : Ends o l n second) : m = n ∧ first = second := by
  induction ends generalizing n with
  | last ends =>
    cases ends' with
    | last ends' => exact ⟨rfl, Sum.inr.inj (ends.symm.trans ends')⟩
    | next goesOn rest => cases ends.symm.trans goesOn
  | next goesOn rest ih =>
    cases ends' with
    | last ends' => cases goesOn.symm.trans ends'
    | next goesOn' rest' =>
      cases goesOn.symm.trans goesOn'
      obtain ⟨turns, result⟩ := ih rest'
      exact ⟨congrArg (· + 1) turns, result⟩

end Loop

/-! ## One turn -/

theorem work_opened {o : Options} {path : Path} {v : Value} {p after : Progress} {f : Frame}
    (opened : visit o path v p = (.inr f, after)) : f.work + 1 = work v := by
  cases v with
  | array elements | object members =>
    cases opened
    rfl
  | _ => simp [visit] at opened

theorem work_leaf {o : Options} {path : Path} {v : Value} {p after : Progress} {s : Shape}
    (found : visit o path v p = (.inl s, after)) : work v = 1 := by
  cases v with
  | array elements | object members => simp [visit] at found
  | _ => rfl

namespace Loop

def result (o : Options) : Loop ⊕ (Shape × Progress) → Shape × Progress
  | .inl l => l.run o
  | .inr found => found

def workLeft : Loop ⊕ (Shape × Progress) → Nat
  | .inl l => l.work
  | .inr _ => 0

theorem work_enter (o : Options) (path : Path) (v : Value) (p : Progress) (frame : Frame)
    (outer : List Frame) :
    (enter frame outer (visit o path v p)).work + 1 =
      Inference.work v + (frame.work + stackWork outer) := by
  rcases visited : visit o path v p with ⟨s | inner, after⟩
  · have leaf := work_leaf visited
    simp only [enter, work, Frame.work_add]
    omega
  · have inside := work_opened visited
    simp only [enter, work, stackWork_cons]
    omega

theorem workLeft_leave (outer : List Frame) (closed : Shape × Progress) :
    workLeft (leave outer closed) = stackWork outer := by
  cases outer with
  | nil => rfl
  | cons next outer => simp only [leave, workLeft, work, Frame.work_add, stackWork_cons]

theorem result_leave (o : Options) (outer : List Frame) (closed : Shape × Progress) :
    result o (leave outer closed) = resume o outer closed := by
  cases outer <;> rfl

/-- A turn takes one piece of work and does not change what is found in the end. -/
theorem turn_spec (o : Options) (l : Loop) :
    l.work = workLeft (l.turn o) + 1 ∧ l.run o = result o (l.turn o) := by
  obtain ⟨frame, outer, p⟩ := l
  cases frame with
  | array path next pending found =>
    cases pending with
    | nil =>
      constructor
      · rw [turn, workLeft_leave, work, Frame.work_array, workElements]
        omega
      · rw [turn, result_leave, run]
        cases outer <;> rw [Inference.run, resume]
    | cons v pending =>
      constructor
      · have entered := work_enter o (path ++ [.index next]) v p
          (.array path (next + 1) pending found) outer
        simp only [turn, workLeft, work, Frame.work_array, workElements] at entered ⊢
        omega
      · rw [turn, result, run, Inference.run]
        split <;> simp only [*, enter, run, Frame.add]
  | object path keys pending found =>
    cases pending with
    | nil =>
      constructor
      · rw [turn, workLeft_leave, work, Frame.work_object, workMembers]
        omega
      · rw [turn, result_leave, run]
        cases outer <;> rw [Inference.run, resume]
    | cons m pending =>
      obtain ⟨key, v⟩ := m
      constructor
      · have entered := work_enter o (path ++ [.key key]) v p (.object path keys pending found) outer
        simp only [turn, workLeft, work, Frame.work_object, workMembers] at entered ⊢
        omega
      · rw [turn, result, run, Inference.run]
        split <;> simp only [*, enter, run, Frame.add]

/-! ## The whole loop -/

/-- As many turns are taken as there is work, whatever is on the stack. -/
theorem ends_run (o : Options) (l : Loop) : Ends o l l.work (l.run o) := by
  obtain ⟨turns, same⟩ : ∃ turns, l.work = turns := ⟨_, rfl⟩
  rw [same]
  induction turns generalizing l with
  | zero =>
    have spent := (turn_spec o l).1
    omega
  | succ turns ih =>
    obtain ⟨spent, kept⟩ := turn_spec o l
    rw [kept]
    cases turned : l.turn o with
    | inl after =>
      rw [turned, workLeft] at spent
      exact .next turned (ih after (by omega))
    | inr found =>
      rw [turned, workLeft] at spent
      have none : turns = 0 := by omega
      rw [none]
      exact .last turned

end Loop

/-- A walk is over at once at a leaf, and otherwise when the loop over its frames ends. -/
inductive Walks (o : Options) (v : Value) (p : Progress) : Nat → Shape × Progress → Prop where
  | leaf {s : Shape} {after : Progress} (found : visit o [] v p = (.inl s, after)) :
      Walks o v p 0 (s, after)
  | container {frame : Frame} {after : Progress} {turns : Nat} {result : Shape × Progress}
      (opened : visit o [] v p = (.inr frame, after))
      (ends : Loop.Ends o ⟨frame, [], after⟩ turns result) : Walks o v p turns result

theorem walks_inferAt (o : Options) (v : Value) (p : Progress) :
    Walks o v p (work v - 1) (inferAt o [] v p) := by
  rcases visited : visit o [] v p with ⟨s | frame, after⟩
  · rw [work_leaf visited, inferAt_of_visit visited]
    exact .leaf visited
  · have opened := work_opened visited
    have turns : work v - 1 = (Loop.mk frame [] after).work := by
      simp only [Loop.work, stackWork]
      omega
    have found : inferAt o [] v p = (Loop.mk frame [] after).run o :=
      (faithful o v [] p frame after [] visited).symm
    rw [turns, found]
    exact .container visited (Loop.ends_run o _)

theorem Walks.unique {o : Options} {v : Value} {p : Progress} {m n : Nat}
    {first second : Shape × Progress} (walks : Walks o v p m first) (walks' : Walks o v p n second) :
    m = n ∧ first = second := by
  cases walks with
  | leaf found =>
    cases walks' with
    | leaf found' =>
      cases found.symm.trans found'
      exact ⟨rfl, rfl⟩
    | container opened ends => cases found.symm.trans opened
  | container opened ends =>
    cases walks' with
    | leaf found => cases opened.symm.trans found
    | container opened' ends' =>
      cases opened.symm.trans opened'
      exact ends.unique ends'

structure FollowsRecursion (o : Options) (v : Value) : Prop where
  /-- The walk ends, in one way only, with the shape and the state of the recursion: the names in the
  shape, the diagnostics in their order, the allocator and the number of members. -/
  ends : ∀ turns result, Walks o v (start o v) turns result ↔
    turns = work v - 1 ∧ result = inferAt o [] v (start o v)
  trace : trace o v = inferAt o [] v (start o v)
  inferred : infer o v =
    { shape := (inferAt o [] v (start o v)).1
      diagnostics := (inferAt o [] v (start o v)).2.diagnostics.toList
      fieldCount := (inferAt o [] v (start o v)).2.fieldCount }
  members : (infer o v).fieldCount = v.memberCount

theorem infer_followsRecursion (o : Options) (v : Value) : FollowsRecursion o v where
  ends turns result := by
    constructor
    · exact fun walks => walks.unique (walks_inferAt o v _)
    · rintro ⟨rfl, rfl⟩
      exact walks_inferAt o v _
  trace := walk_eq_inferAt o v _
  inferred := by
    rw [← walk_eq_inferAt]
    rfl
  members := infer_fieldCount o v

end JsonShape.Inference
