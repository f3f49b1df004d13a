import JsonShape.Naming.Key
import JsonShape.Shape.Basic

/-! Writing a shape in a dialect.

A dialect says which nodes of a shape are shown inside a node, each at its own depth, and how the node is
written around the texts of these. A whole shape is written from the leaves up with a list of tasks
still to do and the texts already written.
-/

set_option autoImplicit false

namespace JsonShape

structure Style where
  rootName : Text := "Root"
  interfaces : Bool := false
  strict : Bool := false
  checksDates : Bool := false
  /-- Property names in camel case for keys in snake case. -/
  camelKeys : Bool := false

def Style.keyName (style : Style) (key : Text) : Text := key.displayKey style.camelKeys

structure Dialect where
  children : Shape → Nat → List (Shape × Nat)
  /-- A node at a depth around the texts of its children. -/
  write : Shape → Nat → List Text → Text
  children_smaller (s : Shape) (depth : Nat) :
    Shape.sizeAll ((children s depth).map (·.1)) < s.size

def Shape.parts (s : Shape) (depth : Nat) : List (Shape × Nat) :=
  match s with
  | .array element => [(element, depth)]
  | .union variants => variants.map fun v => (v, depth)
  | _ => []

theorem Shape.parts_smaller (s : Shape) (depth : Nat) :
    sizeAll ((s.parts depth).map (·.1)) < s.size := by
  cases s <;> simp [parts, size, sizeAll, Function.comp_def]

namespace Dialect

inductive Task where
  | visit (s : Shape) (depth : Nat)
  /-- Write a node around the last texts written. -/
  | assemble (s : Shape) (depth arity : Nat)

def Task.work : Task → Nat
  | .visit s _ => 2 * s.size
  | .assemble _ _ _ => 1

def work : List Task → Nat
  | [] => 0
  | task :: rest => task.work + work rest

def expand (d : Dialect) (s : Shape) (depth : Nat) : List Task :=
  let children := d.children s depth
  children.map (fun (c, e) => .visit c e) ++ [.assemble s depth children.length]

theorem work_append (first second : List Task) : work (first ++ second) = work first + work second := by
  induction first with
  | nil => simp [work]
  | cons task rest ih => simp only [List.cons_append, work, ih, Nat.add_assoc]

theorem work_visits (children : List (Shape × Nat)) :
    work (children.map fun (c, e) => Task.visit c e) = 2 * Shape.sizeAll (children.map (·.1)) := by
  induction children with
  | nil => rfl
  | cons child rest ih =>
    simp only [List.map_cons, work, Task.work, Shape.sizeAll, ih]
    omega

theorem work_expand_lt (d : Dialect) (s : Shape) (depth : Nat) :
    work (d.expand s depth) < 2 * s.size := by
  have smaller := d.children_smaller s depth
  rw [expand, work_append, work_visits]
  simp only [work, Task.work]
  omega

/-- Do the tasks in order. Texts are listed newest first. -/
def run (d : Dialect) (tasks : List Task) (texts : List Text) : List Text :=
  match tasks with
  | [] => texts
  | .visit s depth :: rest => d.run (d.expand s depth ++ rest) texts
  | .assemble s depth arity :: rest =>
    d.run rest (d.write s depth (texts.take arity).reverse :: texts.drop arity)
termination_by work tasks
decreasing_by
  · have smaller := d.work_expand_lt s depth
    rw [work_append]
    simp only [work, Task.work]
    omega
  · simp only [work, Task.work]
    omega

def render (d : Dialect) (s : Shape) (depth : Nat) : Text :=
  (d.run [.visit s depth] []).headD []

theorem size_lt_of_child {d : Dialect} {s child : Shape} {depth childDepth : Nat}
    (member : (child, childDepth) ∈ d.children s depth) : child.size < s.size := by
  have smaller := d.children_smaller s depth
  have bound : child.size ≤ Shape.sizeAll ((d.children s depth).map (·.1)) :=
    Shape.size_le_sizeAll (List.mem_map.2 ⟨_, member, rfl⟩)
  omega

def compose (d : Dialect) (s : Shape) (depth : Nat) : Text :=
  d.write s depth ((d.children s depth).attach.map fun child => d.compose child.1.1 child.1.2)
termination_by s.size
decreasing_by exact size_lt_of_child child.2

end Dialect

end JsonShape
