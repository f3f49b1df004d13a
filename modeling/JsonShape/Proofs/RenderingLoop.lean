import JsonShape.Proofs.ExampleValues
import Mathlib.Logic.Relation

/-! Rendering as a loop.

A node that shows others comes up twice. The first time those others are put on the stack above it, and the
second time it is written around the texts that were written last. There are always as many of them as it
needs, and the loop ends with a single text, which is that of the recursion.
-/

set_option autoImplicit false

namespace JsonShape

namespace Dialect

structure Entry where
  shape : Shape
  depth : Nat
  /-- Whether the nodes shown inside it have been put on the stack. -/
  expanded : Bool

def Entry.new (child : Shape × Nat) : Entry := ⟨child.1, child.2, false⟩

structure Loop where
  stack : List Entry
  written : List Text

namespace Loop

def start (s : Shape) (depth : Nat) : Loop := ⟨[.new (s, depth)], []⟩

/-- One turn. There is none when the stack is empty or a node needs more texts than have been written. -/
def turn? (d : Dialect) (l : Loop) : Option Loop :=
  match l.stack with
  | [] => none
  | ⟨s, depth, expanded⟩ :: rest =>
    let children := d.children s depth
    if !children.isEmpty && !expanded then
      some { l with stack := children.map Entry.new ++ ⟨s, depth, true⟩ :: rest }
    else if children.length ≤ l.written.length then
      let first := l.written.length - children.length
      some ⟨rest, l.written.take first ++ [d.write s depth (l.written.drop first)]⟩
    else none

def Reaches (d : Dialect) : Loop → Loop → Prop :=
  Relation.ReflTransGen fun l after => l.turn? d = some after

inductive Ends (d : Dialect) : Loop → Nat → List Text → Prop where
  | done (texts : List Text) : Ends d ⟨[], texts⟩ 0 texts
  | next {l after : Loop} {turns : Nat} {texts : List Text} (turned : l.turn? d = some after)
      (rest : Ends d after turns texts) : Ends d l (turns + 1) texts

variable {d : Dialect} {s : Shape} {depth : Nat} {rest : List Entry} {texts : List Text}

theorem Ends.unique {l : Loop} {m n : Nat} {first second : List Text} (ends : Ends d l m first)
    (ends' : Ends d l n second) : m = n ∧ first = second := by
  induction ends generalizing n with
  | done texts =>
    cases ends' with
    | done => exact ⟨rfl, rfl⟩
    | next turned rest => cases turned
  | next turned rest ih =>
    cases ends' with
    | done => cases turned
    | next turned' rest' =>
      cases turned.symm.trans turned'
      obtain ⟨turns, same⟩ := ih rest'
      exact ⟨congrArg (· + 1) turns, same⟩

theorem Ends.of_reaches {l after : Loop} {turns : Nat} (ends : Ends d l turns texts)
    (reaches : Reaches d l after) : ∃ left, Ends d after left texts := by
  induction reaches with
  | refl => exact ⟨turns, ends⟩
  | tail _ turned ih =>
    obtain ⟨left, ends⟩ := ih
    cases ends with
    | done => cases turned
    | next turned' rest =>
      cases turned'.symm.trans turned
      exact ⟨_, rest⟩

/-! ## One turn -/

theorem turn?_expand (inner : d.children s depth ≠ []) :
    turn? d ⟨.new (s, depth) :: rest, texts⟩ =
      some ⟨(d.children s depth).map Entry.new ++ ⟨s, depth, true⟩ :: rest, texts⟩ := by
  have some : (d.children s depth).isEmpty = false := by simpa using inner
  simp only [turn?, Entry.new, some, Bool.not_false, Bool.and_self, if_true]

theorem turn?_write {expanded : Bool} (ready : d.children s depth = [] ∨ expanded) (rest : List Entry)
    (texts : List Text) {parts : List Text} (enough : parts.length = (d.children s depth).length) :
    turn? d ⟨⟨s, depth, expanded⟩ :: rest, texts ++ parts⟩ =
      some ⟨rest, texts ++ [d.write s depth parts]⟩ := by
  have write : (!(d.children s depth).isEmpty && !expanded) = false := by
    rcases ready with none | rfl
    · rw [none]; rfl
    · exact Bool.and_false _
  have fits : (d.children s depth).length ≤ (texts ++ parts).length := by
    rw [List.length_append]
    omega
  -- the slice starts where the texts from before end
  have first : (texts ++ parts).length - (d.children s depth).length = texts.length := by
    rw [List.length_append]
    omega
  simp only [turn?, write, Bool.false_eq_true, if_false, if_pos fits, first, List.take_left,
    List.drop_left]

theorem enough_of_turn? {l after : Loop} {e : Entry} (turned : l.turn? d = some after)
    (next : l.stack = e :: rest) (ready : d.children e.shape e.depth = [] ∨ e.expanded) :
    (d.children e.shape e.depth).length ≤ l.written.length := by
  rcases ready with none | expanded
  · rw [none]
    exact Nat.zero_le _
  · simp only [turn?, next, expanded, Bool.not_true, Bool.and_false, Bool.false_eq_true, if_false] at turned
    split at turned
    · assumption
    · cases turned

end Loop

/-! ## The whole loop -/

/-- Turns for a node with all that it shows: one to write it, and one more if it shows others. -/
def turns (d : Dialect) (s : Shape) (depth : Nat) : Nat :=
  ((d.children s depth).attach.map fun child => d.turns child.1.1 child.1.2).sum +
    if (d.children s depth).isEmpty then 1 else 2
termination_by s.size
decreasing_by exact size_lt_of_child child.2

theorem turns_eq (d : Dialect) (s : Shape) (depth : Nat) :
    d.turns s depth = ((d.children s depth).map fun child => d.turns child.1 child.2).sum +
      if (d.children s depth).isEmpty then 1 else 2 := by
  rw [turns, List.attach_map_val (f := fun child : Shape × Nat => d.turns child.1 child.2)]

namespace Loop

variable {d : Dialect}

def Visits (d : Dialect) (s : Shape) (depth : Nat) : Prop :=
  ∀ rest texts turns result, Ends d ⟨rest, texts ++ [d.compose s depth]⟩ turns result →
    Ends d ⟨.new (s, depth) :: rest, texts⟩ (turns + d.turns s depth) result

theorem Ends.visits {children : List (Shape × Nat)} (each : ∀ child ∈ children, Visits d child.1 child.2)
    {rest : List Entry} {texts result : List Text} {turns : Nat}
    (ends : Ends d ⟨rest, texts ++ children.map fun child => d.compose child.1 child.2⟩ turns result) :
    Ends d ⟨children.map Entry.new ++ rest, texts⟩
      (turns + (children.map fun child => d.turns child.1 child.2).sum) result := by
  induction children generalizing texts with
  | nil => simpa using ends
  | cons child later ih =>
    rw [List.map_cons, List.append_cons] at ends
    have others := ih (fun c member => each c (List.mem_cons_of_mem child member)) ends
    have whole := each child List.mem_cons_self _ _ _ _ others
    rwa [List.map_cons, List.map_cons, List.sum_cons, Nat.add_comm (d.turns _ _), ← Nat.add_assoc]

/-- The texts on the list are those of the nodes that have been left, whatever else is on the stack. -/
theorem visits (d : Dialect) (s : Shape) (depth : Nat) : Visits d s depth := by
  intro rest texts turns result ends
  have below : ∀ child ∈ d.children s depth, Visits d child.1 child.2 := fun child member =>
    have smaller : child.1.size < s.size := size_lt_of_child member
    visits d child.1 child.2
  rw [compose_eq] at ends
  rw [turns_eq]
  by_cases leaf : d.children s depth = []
  · rw [leaf, List.map_nil] at ends ⊢
    have written : turn? d ⟨.new (s, depth) :: rest, texts ++ []⟩ = _ :=
      turn?_write (.inl leaf) rest texts (congrArg List.length leaf).symm
    rw [List.append_nil] at written
    exact .next written ends
  · have inner : (d.children s depth).isEmpty = false := by simpa using leaf
    rw [inner, if_neg Bool.false_ne_true]
    -- the children are written between the two turns of the node
    have last := Ends.next (turn?_write (.inr rfl) rest texts (by rw [List.length_map])) ends
    have first := Ends.next (turn?_expand leaf) (.visits below last)
    have count : turns + 1 + ((d.children s depth).map fun child => d.turns child.1 child.2).sum + 1 =
        turns + (((d.children s depth).map fun child => d.turns child.1 child.2).sum + 2) := by omega
    rwa [count] at first
termination_by s.size

theorem ends_start (d : Dialect) (s : Shape) (depth : Nat) :
    Ends d (start s depth) (d.turns s depth) [d.compose s depth] := by
  have ends := visits d s depth [] [] 0 _ (.done [d.compose s depth])
  rwa [Nat.zero_add] at ends

/-- What holds of a shape and of the shapes shown inside it holds of all shapes that come on the stack. -/
theorem Reaches.forall_stack (keeps : Shape → Prop) {l after : Loop}
    (inner : ∀ s depth, keeps s → ∀ child ∈ d.children s depth, keeps child.1)
    (reaches : Reaches d l after) (known : ∀ e ∈ l.stack, keeps e.shape) :
    ∀ e ∈ after.stack, keeps e.shape := by
  induction reaches with
  | refl => exact known
  | @tail before after _ turned ih =>
    obtain ⟨stack, written⟩ := before
    cases stack with
    | nil => cases turned
    | cons e rest =>
      obtain ⟨here, later⟩ := List.forall_mem_cons.1 ih
      simp only [turn?] at turned
      split at turned
      · cases turned
        refine List.forall_mem_append.2 ⟨?_, List.forall_mem_cons.2 ⟨here, later⟩⟩
        rw [List.forall_mem_map]
        exact fun child member => inner _ _ here child member
      · split at turned <;> cases turned
        exact later

end Loop

structure FollowsRecursion (d : Dialect) (s : Shape) (depth : Nat) : Prop where
  /-- The loop ends, in one way only: with one text, that of the recursion. -/
  ends : ∀ turns texts, Loop.Ends d (.start s depth) turns texts ↔
    turns = d.turns s depth ∧ texts = [d.compose s depth]
  /-- Wherever the loop has come, a node that is written next finds as many texts as it needs. -/
  supplied : ∀ l e rest, Loop.Reaches d (.start s depth) l → l.stack = e :: rest →
    (d.children e.shape e.depth = [] ∨ e.expanded) →
      (d.children e.shape e.depth).length ≤ l.written.length
  tasks : d.run [.visit s depth] [] = [d.compose s depth]
  rendered : d.render s depth = d.compose s depth
  recursion : d.render s depth =
    d.write s depth ((d.children s depth).map fun child => d.render child.1 child.2)

theorem followsRecursion (d : Dialect) (s : Shape) (depth : Nat) : d.FollowsRecursion s depth where
  ends turns texts := by
    constructor
    · exact fun ends => ends.unique (Loop.ends_start d s depth)
    · rintro ⟨rfl, rfl⟩
      exact Loop.ends_start d s depth
  supplied l e rest reaches next ready := by
    obtain ⟨left, ends⟩ := (Loop.ends_start d s depth).of_reaches reaches
    cases ends with
    | done => cases next
    | next turned _ => exact Loop.enough_of_turn? turned next ready
  tasks := by
    rw [d.faithful, run]
  rendered := render_eq d s depth
  recursion := by
    simp only [render_eq]
    exact compose_eq d s depth

theorem children_inside {s child : Shape} {depth childDepth : Nat} :
    (child, childDepth) ∈ Example.children s depth → child ∈ s.inside := by
  intro member
  cases s with
  | array element =>
    cases List.mem_singleton.1 member
    exact List.mem_cons_self
  | union variants =>
    simp only [Example.children, Option.mem_toList, Option.map_eq_some_iff] at member
    obtain ⟨v, shown, same⟩ := member
    cases same
    exact Shape.mem_of_representative shown
  | object name properties =>
    obtain ⟨p, shown, same⟩ := List.mem_map.1 member
    cases same
    exact List.mem_map_of_mem (List.mem_of_mem_filter shown)
  | _ => cases member

/-- Type and schema expressions are rendered like the recursion for all shapes, and examples for those whose
unions all have variants: there every union that comes up has one to be shown. -/
theorem loops_followRecursion (style : Style) (s : Shape) (depth : Nat) :
    TypeScript.dialect.FollowsRecursion s depth ∧ (Zod.dialect style).FollowsRecursion s depth ∧
      (s.all Shape.hasVariants → (Example.dialect style).FollowsRecursion s depth ∧
        s.showsEmptyUnion = false ∧
        ∀ l, Loop.Reaches (Example.dialect style) (.start s depth) l → ∀ e ∈ l.stack, ∀ variants,
          e.shape = .union variants → ∃ v ∈ variants, Shape.representative? variants = some v) := by
  refine ⟨followsRecursion _ s depth, followsRecursion _ s depth, fun filled => ?_⟩
  refine ⟨followsRecursion _ s depth, Shape.shown_of_hasVariants filled, ?_⟩
  intro l reaches e member variants union
  have kept := reaches.forall_stack (·.all Shape.hasVariants)
    (fun t depth passes child among => Shape.all_inside passes (children_inside among))
    (List.forall_mem_singleton.2 filled) e member
  rw [union] at kept
  exact Shape.exists_representative (Shape.union_ne_nil kept)

theorem loops_followRecursion_tangled :
    Example.tangled.all Shape.hasVariants ∧
      (Example.dialect { camelKeys := true }).FollowsRecursion Example.tangled 1 := by
  have filled : Example.tangled.all Shape.hasVariants := by decide
  exact ⟨filled, ((loops_followRecursion { camelKeys := true } Example.tangled 1).2.2 filled).1⟩

end Dialect

end JsonShape
