import JsonShape.Proofs.Discovery
import JsonShape.Proofs.QuotedKeys

/-! What can be read off a document.

A text written for something is legible when no other thing is written alike, as far as a look at it shows,
and when it is clear where the text ends. Texts written one after another are legible if each is and if
going on cannot be mistaken for stopping. A look at a declaration shows names, keys, flags and types, but
of the objects that a type refers to only the names.
-/

set_option autoImplicit false

namespace JsonShape

namespace Text

theorem joined_cons (sep part : Text) (parts : List Text) :
    joined sep (part :: parts) = part ++ parts.flatMap (sep ++ ·) := by
  induction parts generalizing part with
  | nil => simp [joined]
  | cons next rest ih =>
    rw [joined, List.intercalate_cons_cons, ← joined, ih, List.flatMap_cons]
    simp only [List.append_assoc]

theorem endsWord_equals (t : Text) : EndsWord (" = " ++ t) := endsWord_cons (by decide) _

def Apart (s t : Text) : Prop := ¬ s <+: t ∧ ¬ t <+: s

instance (s t : Text) : Decidable (s.Apart t) := inferInstanceAs (Decidable (_ ∧ _))

theorem Apart.not_prefix {s t : Text} (apart : s.Apart t) (u : Text) : ¬ s <+: t ++ u := by
  intro starts
  rcases List.prefix_or_prefix_of_prefix starts (List.prefix_append t u) with here | there
  · exact apart.1 here
  · exact apart.2 there

theorem Apart.append_ne {s t : Text} (apart : s.Apart t) (r u : Text) : s ++ r ≠ t ++ u :=
  fun same => apart.not_prefix u ⟨r, same⟩

/-- A part that may be left out, before a text that does not start like it. -/
theorem optional_append_inj {part r r' : Text} {written written' : Bool} (apart : ¬ part <+: r)
    (apart' : ¬ part <+: r')
    (same : (if written then part else []) ++ r = (if written' then part else []) ++ r') :
    written = written' ∧ r = r' := by
  cases written with
  | false =>
    cases written' with
    | false => exact ⟨rfl, same⟩
    | true => exact absurd ⟨r', same.symm⟩ apart
  | true =>
    cases written' with
    | false => exact absurd ⟨r, same⟩ apart'
    | true => exact ⟨rfl, List.append_cancel_left same⟩

end Text

/-! ## Scripts -/

structure Script (α β : Type) where
  write : α → Text
  /-- What the text is to show of the thing. -/
  look : α → β
  allows : α → Prop
  /-- What may follow the text. -/
  ends : Text → Prop

namespace Script

variable {α β : Type} {script : Script α β} {a b : α} {as bs : List α} {r r' sep : Text}
  {stop : Text → Prop}

/-- The text for a thing shows it and where it ends. -/
def Legible (script : Script α β) (a : α) : Prop :=
  ∀ b, script.allows b → ∀ r r', script.ends r → script.ends r' →
    script.write a ++ r = script.write b ++ r' → script.look a = script.look b ∧ r = r'

/-- Texts of the script may follow each other, and `stop` tells that no other one follows. -/
structure Continues (script : Script α β) (stop : Text → Prop) : Prop where
  between (b : α) (t : Text) : script.ends (script.write b ++ t)
  last (t : Text) : stop t → script.ends t
  apart (b : α) (t : Text) : ¬ stop (script.write b ++ t)

theorem ends_flatMap (continues : script.Continues stop) (as : List α) (stops : stop r) :
    script.ends (as.flatMap script.write ++ r) := by
  cases as with
  | nil => exact continues.last r stops
  | cons a rest =>
    rw [List.flatMap_cons, List.append_assoc]
    exact continues.between a _

theorem flatMap_append_inj (continues : script.Continues stop) (legible : ∀ a ∈ as, script.Legible a)
    (allowed : ∀ b ∈ bs, script.allows b) (stops : stop r) (stops' : stop r')
    (same : as.flatMap script.write ++ r = bs.flatMap script.write ++ r') :
    as.map script.look = bs.map script.look ∧ r = r' := by
  induction as generalizing bs with
  | nil =>
    cases bs with
    | nil => exact ⟨rfl, same⟩
    -- one text would stop where the other goes on
    | cons b rest =>
      rw [List.flatMap_nil, List.nil_append, List.flatMap_cons, List.append_assoc] at same
      rw [same] at stops
      exact absurd stops (continues.apart b _)
  | cons a rest ih =>
    cases bs with
    | nil =>
      rw [List.flatMap_nil, List.nil_append, List.flatMap_cons, List.append_assoc] at same
      rw [← same] at stops'
      exact absurd stops' (continues.apart a _)
    | cons b others =>
      rw [List.flatMap_cons, List.flatMap_cons, List.append_assoc, List.append_assoc] at same
      obtain ⟨here, later⟩ := legible a List.mem_cons_self b (allowed b List.mem_cons_self) _ _
        (ends_flatMap continues rest stops) (ends_flatMap continues others stops') same
      obtain ⟨looks, rest⟩ := ih (fun a member => legible a (List.mem_cons_of_mem _ member))
        (fun b member => allowed b (List.mem_cons_of_mem _ member)) later
      exact ⟨by rw [List.map_cons, List.map_cons, here, looks], rest⟩

def after (script : Script α β) (sep : Text) : Script α β :=
  { script with write := fun a => sep ++ script.write a }

theorem Legible.after (legible : script.Legible a) (sep : Text) : (script.after sep).Legible a := by
  intro b allowed r r' ends ends' same
  simp only [Script.after, List.append_assoc, List.append_cancel_left_eq] at same
  exact legible b allowed r r' ends ends' same

theorem joined_append_inj (continues : (script.after sep).Continues stop)
    (legible : ∀ a ∈ as, script.Legible a) (allowed : ∀ b ∈ bs, script.allows b) (some : as ≠ [])
    (some' : bs ≠ []) (stops : stop r) (stops' : stop r')
    (same : Text.joined sep (as.map script.write) ++ r = Text.joined sep (bs.map script.write) ++ r') :
    as.map script.look = bs.map script.look ∧ r = r' := by
  obtain ⟨a, rest, rfl⟩ := List.exists_cons_of_ne_nil some
  obtain ⟨b, others, rfl⟩ := List.exists_cons_of_ne_nil some'
  simp only [List.map_cons, Text.joined_cons, List.flatMap_map, List.append_assoc] at same
  obtain ⟨here, later⟩ := legible a List.mem_cons_self b (allowed b List.mem_cons_self) _ _
    (ends_flatMap continues rest stops) (ends_flatMap continues others stops') same
  obtain ⟨looks, rest⟩ := flatMap_append_inj continues
    (fun a member => (legible a (List.mem_cons_of_mem _ member)).after sep)
    (fun b member => allowed b (List.mem_cons_of_mem _ member)) stops stops' later
  exact ⟨by rw [List.map_cons, List.map_cons, here]; exact congrArg _ looks, rest⟩

end Script

/-! ## A look at a shape -/

namespace Shape

mutual

/-- A shape as an expression shows it, with objects by their names alone; `name` is how a name is shown and
`dates` whether dates differ from strings. -/
def brief (name : Text → Text) (dates : Bool) : Shape → Shape
  | .date => if dates then .date else .string
  | .array element => .array (brief name dates element)
  | .union variants => .union (briefAll name dates variants)
  | .object n _ => .object (name n) []
  | s => s

def briefAll (name : Text → Text) (dates : Bool) : List Shape → List Shape
  | [] => []
  | s :: rest => brief name dates s :: briefAll name dates rest

end

mutual

def all (test : Shape → Bool) : Shape → Bool
  | .array element => test (.array element) && all test element
  | .union variants => test (.union variants) && allVariants test variants
  | .object name properties => test (.object name properties) && allProperties test properties
  | s => test s

def allVariants (test : Shape → Bool) : List Shape → Bool
  | [] => true
  | s :: rest => all test s && allVariants test rest

def allProperties (test : Shape → Bool) : List (Property Shape) → Bool
  | [] => true
  | p :: rest => all test p.shape && allProperties test rest

end

variable {name : Text → Text} {dates : Bool} {test : Shape → Bool}

theorem brief_union (variants : List Shape) :
    (union variants).brief name dates = .union (variants.map (brief name dates)) := by
  rw [brief]
  refine congrArg _ ?_
  induction variants with
  | nil => rfl
  | cons s rest ih => rw [briefAll, ih, List.map_cons]

theorem all_iff {s : Shape} : s.all test ↔ test s ∧ ∀ t ∈ s.inside, t.all test := by
  have variants (list : List Shape) : allVariants test list ↔ ∀ t ∈ list, t.all test := by
    induction list with
    | nil => simp [allVariants]
    | cons t rest ih => rw [allVariants, Bool.and_eq_true, ih, List.forall_mem_cons]
  have properties (list : List (Property Shape)) :
      allProperties test list ↔ ∀ p ∈ list, p.shape.all test := by
    induction list with
    | nil => simp [allProperties]
    | cons p rest ih => rw [allProperties, Bool.and_eq_true, ih, List.forall_mem_cons]
  cases s <;> simp [all, inside, variants, properties]

theorem test_of_mem_preorder {s : Shape} (passes : s.all test) {r : Record} (member : r ∈ s.preorder) :
    r.toShape.all test := by
  induction s using inside_induction with
  | node s ih =>
    rw [preorder_eq, List.mem_append, Option.mem_toList, record?_eq_some, List.mem_flatMap] at member
    rcases member with rfl | ⟨t, inside, among⟩
    · exact passes
    · exact ih t inside ((all_iff.1 passes).2 t inside) among

end Shape

def Property.brief (name : Text → Text) (dates : Bool) (p : Property Shape) : Property Shape :=
  { p with key := p.key.paired, shape := p.shape.brief name dates }

def Record.brief (name : Text → Text) (dates : Bool) (r : Record) : Record :=
  ⟨name r.name, r.properties.map (Property.brief name dates)⟩

/-! ## Declarations -/

inductive Declared where
  | object (r : Record)
  | root (s : Shape)

namespace Declared

def brief (name : Text → Text) (dates : Bool) : Declared → Declared
  | .object r => .object (r.brief name dates)
  | .root s => .root (s.brief name dates)

def object? : Declared → Option Record
  | .object r => some r
  | .root _ => none

def Passes (test : Shape → Bool) : Declared → Prop
  | .object r => r.toShape.all test
  | .root s => s.all test ∧ s.isObject = false

def shown : Declared → Shape
  | .object r => .object r.name []
  | .root s => s

end Declared

namespace Shape

def declared (s : Shape) : List Declared :=
  s.declarationOrder.map .object ++ if s.isObject then [] else [.root s]

variable {name : Text → Text} {dates : Bool} {s t : Shape}

theorem objects_declared (s : Shape) :
    (s.declared.map (Declared.brief name dates)).filterMap Declared.object? =
      s.declarationOrder.map (Record.brief name dates) := by
  have root : (((if s.isObject then [] else [Declared.root s]).map (Declared.brief name dates)).filterMap
      Declared.object?) = [] := by
    cases s.isObject <;> rfl
  rw [declared, List.map_append, List.filterMap_append, root, List.append_nil, List.map_map,
    List.filterMap_map]
  exact congrFun List.filterMap_eq_map _

theorem declared_passes {test : Shape → Bool} (passes : s.all test) : ∀ d ∈ s.declared, d.Passes test := by
  intro d member
  rw [declared, declarationOrder, records_eq] at member
  rcases List.mem_append.1 member with object | root
  · obtain ⟨r, among, rfl⟩ := List.mem_map.1 object
    exact test_of_mem_preorder passes (List.mem_reverse.1 among)
  · split at root
    · cases root
    · next notObject =>
      rw [List.mem_singleton.1 root]
      exact ⟨passes, Bool.eq_false_iff.2 notObject⟩

theorem declared_eq (s : Shape) :
    ∃ earlier last, s.declared = earlier ++ [last] ∧
      (last.brief name dates).shown = s.brief name dates := by
  cases object : s.record? with
  | none =>
    exact ⟨_, .root s, by rw [declared, isObject_of_record? object]; rfl, rfl⟩
  | some r =>
    rw [record?_eq_some] at object
    subst object
    refine ⟨(r.toShape.inside.flatMap preorder).reverse.map .object, .object r, ?_, by
      rw [Record.toShape, brief]; rfl⟩
    rw [declared, declarationOrder, records_eq, preorder_eq]
    simp [Record.toShape, record?, isObject]

theorem declared_ne_nil (s : Shape) : s.declared ≠ [] := by
  obtain ⟨earlier, last, isLast, _⟩ := @declared_eq id true s
  rw [isLast]
  exact List.append_ne_nil_of_right_ne_nil earlier (List.cons_ne_nil last [])

theorem shown_declared (s : Shape) :
    (s.declared.map (Declared.brief name dates)).getLast?.map Declared.shown =
      some (s.brief name dates) := by
  obtain ⟨earlier, last, isLast, shown⟩ := @declared_eq name dates s
  rw [isLast, List.map_append, List.map_singleton, List.getLast?_concat, Option.map_some, shown]

end Shape

/-- Two shapes declare the same objects in the same order, with the same flags and with types that look the
same, and so do their roots. Keys are the same up to pairs of surrogates. -/
structure SameDeclarations (name : Text → Text) (dates : Bool) (s t : Shape) : Prop where
  objects : s.declarationOrder.map (Record.brief name dates) =
    t.declarationOrder.map (Record.brief name dates)
  keys : (∀ r ∈ s.declarationOrder, ∀ p ∈ r.properties, p.key.IsWhole) →
    (∀ r ∈ t.declarationOrder, ∀ p ∈ r.properties, p.key.IsWhole) →
    s.declarationOrder.map (fun r => r.properties.map (·.key)) =
      t.declarationOrder.map (fun r => r.properties.map (·.key))
  root : s.brief name dates = t.brief name dates

theorem keys_brief {name : Text → Text} {dates : Bool} {records : List Record}
    (whole : ∀ r ∈ records, ∀ p ∈ r.properties, p.key.IsWhole) :
    (records.map (Record.brief name dates)).map (fun r => r.properties.map (·.key)) =
      records.map (fun r => r.properties.map (·.key)) := by
  rw [List.map_map]
  refine List.map_congr_left fun r member => ?_
  rw [Function.comp_apply, Record.brief, List.map_map]
  exact List.map_congr_left fun p listed => Text.paired_of_isWhole (whole r member p listed)

theorem sameDeclarations_of_brief {name : Text → Text} {dates : Bool} {s t : Shape}
    (same : s.declared.map (Declared.brief name dates) = t.declared.map (Declared.brief name dates)) :
    SameDeclarations name dates s t := by
  have objects : s.declarationOrder.map (Record.brief name dates) =
      t.declarationOrder.map (Record.brief name dates) := by
    rw [← Shape.objects_declared, same, Shape.objects_declared]
  refine ⟨objects, fun whole whole' => ?_, ?_⟩
  · rw [← keys_brief whole, objects, keys_brief whole']
  · have last := @Shape.shown_declared name dates s
    rw [same, Shape.shown_declared] at last
    exact (Option.some.inj last).symm

def oneKey (key : Text) : Shape := .object "Root" [⟨key, .number, false, false⟩]

def splitPair : Text := [⟨0xD83D, by decide⟩, ⟨0xDE00, by decide⟩]

def joinedPair : Text := [⟨0x1F600, by decide⟩]

theorem keys_oneKey (key : Text) :
    (oneKey key).declarationOrder.map (fun r => r.properties.map (·.key)) = [[key]] := by
  rw [Shape.declarationOrder, Shape.records_eq]
  rfl

theorem keys_splitPair :
    (oneKey splitPair).declarationOrder.map (fun r => r.properties.map (·.key)) ≠
      (oneKey joinedPair).declarationOrder.map (fun r => r.properties.map (·.key)) := by
  simp only [keys_oneKey]
  decide

end JsonShape
