import JsonShape.Inference.Recursive

/-! Inference with an explicit stack.

Deep values must not exhaust the stack of the machine, so the containers around the current place are
kept as frames: what remains to be visited in each, and the shapes already found. Names and diagnostics
come in the same order as by recursion.
-/

set_option autoImplicit false

namespace JsonShape.Inference

open Json (Value Member)

/-- A container part of the way through. Shapes found are listed newest first. -/
inductive Frame where
  | array (path : Path) (next : Nat) (pending : List Value) (found : List Shape)
  | object (path : Path) (keys : List Text) (pending : List Member) (found : List Shape)

namespace Frame

def add (s : Shape) : Frame → Frame
  | .array path next pending found => .array path next pending (s :: found)
  | .object path keys pending found => .object path keys pending (s :: found)

end Frame

def visit (o : Options) (path : Path) (v : Value) (p : Progress) : (Shape ⊕ Frame) × Progress :=
  match v with
  | .null => (.inl .null, p)
  | .bool _ => (.inl .boolean, p)
  | .number _ => (.inl .number, p)
  | .string s =>
    let (s, p) := inferText o path s p
    (.inl s, p)
  | .array elements => (.inr (.array path 0 elements []), p)
  | .object members =>
    (.inr (.object path (members.map (·.1)) members []), p.count members.length)

/-! ## Work left -/

mutual

/-- Steps that a value takes: one to visit a leaf, and two more than its contents for a container. -/
def work : Value → Nat
  | .array elements => workElements elements + 2
  | .object members => workMembers members + 2
  | _ => 1

def workElements : List Value → Nat
  | [] => 0
  | v :: rest => work v + workElements rest

def workMembers : List (Text × Value) → Nat
  | [] => 0
  | (_, v) :: rest => work v + workMembers rest

end

def Frame.work : Frame → Nat
  | .array _ _ pending _ => workElements pending + 1
  | .object _ _ pending _ => workMembers pending + 1

def stackWork : List Frame → Nat
  | [] => 0
  | f :: outer => f.work + stackWork outer

theorem Frame.work_array (path : Path) (next : Nat) (pending : List Value) (found : List Shape) :
    (Frame.array path next pending found).work = workElements pending + 1 := rfl

theorem Frame.work_object (path : Path) (keys : List Text) (pending : List Member)
    (found : List Shape) : (Frame.object path keys pending found).work = workMembers pending + 1 := rfl

theorem Frame.work_add (s : Shape) (f : Frame) : (f.add s).work = f.work := by
  cases f <;> rfl

theorem stackWork_cons (f : Frame) (outer : List Frame) :
    stackWork (f :: outer) = f.work + stackWork outer := rfl

theorem work_visit {o : Options} {path : Path} {v : Value} {p after : Progress} {f : Frame}
    (opened : visit o path v p = (.inr f, after)) : f.work < work v := by
  cases v <;> simp only [visit, Prod.mk.injEq, Sum.inr.injEq, reduceCtorEq, false_and] at opened
  all_goals
    obtain ⟨same, _⟩ := opened
    subst same
    simp [Frame.work, work]

theorem work_pos (v : Value) : 0 < work v := by
  cases v <;> simp [work]

def run (o : Options) (frame : Frame) (outer : List Frame) (p : Progress) : Shape × Progress :=
  match frame with
  | .array path next (v :: pending) found =>
    match _visited : visit o (path ++ [.index next]) v p with
    | (.inl s, p) => run o (.array path (next + 1) pending (s :: found)) outer p
    | (.inr inner, p) => run o inner (.array path (next + 1) pending found :: outer) p
  | .object path keys ((key, v) :: pending) found =>
    match _visited : visit o (path ++ [.key key]) v p with
    | (.inl s, p) => run o (.object path keys pending (s :: found)) outer p
    | (.inr inner, p) => run o inner (.object path keys pending found :: outer) p
  | .array path _ [] found =>
    let closed := closeArray path found.reverse p
    match outer with
    | [] => closed
    | next :: outer => run o (next.add closed.1) outer closed.2
  | .object path keys [] found =>
    let closed := closeObject o path (keys.zip found.reverse) p
    match outer with
    | [] => closed
    | next :: outer => run o (next.add closed.1) outer closed.2
termination_by frame.work + stackWork outer
decreasing_by
  · have positive := work_pos v
    simp only [Frame.work_array, workElements]
    omega
  · have less := work_visit _visited
    simp only [stackWork_cons, Frame.work_array, workElements]
    omega
  · have positive := work_pos v
    simp only [Frame.work_object, workMembers]
    omega
  · have less := work_visit _visited
    simp only [stackWork_cons, Frame.work_object, workMembers]
    omega
  · simp only [stackWork_cons, Frame.work_add, Frame.work_array]
    omega
  · simp only [stackWork_cons, Frame.work_add, Frame.work_object]
    omega

def walk (o : Options) (v : Value) (p : Progress) : Shape × Progress :=
  match visit o [] v p with
  | (.inl s, p) => (s, p)
  | (.inr frame, p) => run o frame [] p

end JsonShape.Inference
