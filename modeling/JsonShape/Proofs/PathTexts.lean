import JsonShape.Proofs.Legibility
import JsonShape.Proofs.Numerals
import JsonShape.Proofs.Reports
import JsonShape.Proofs.SchemaNames

/-! Paths as texts.

A key is written after a point and an index in brackets, but nothing stands before a key that comes first. If
keys have no point and no opening bracket in them, it is clear where each segment ends, whatever follows it.
So a diagnostic of a sample with such keys shows what place it is about, and only the root has no path.
-/

set_option autoImplicit false

namespace JsonShape

open Json (StartsIn)

/-- There is something of the key, and it has no point and no opening bracket. -/
def Text.IsPlainKey (t : Text) : Prop := t ≠ [] ∧ CodePoint.ofChar '.' ∉ t ∧ CodePoint.ofChar '[' ∉ t

instance (t : Text) : Decidable t.IsPlainKey := inferInstanceAs (Decidable (_ ∧ _))

/-! ## Segments one after another -/

namespace Segment

variable {r r' : Text}

def IsPlain : Segment → Prop
  | .key name => name.IsPlainKey
  | .index i => 0 ≤ i

instance (s : Segment) : Decidable s.IsPlain :=
  match s with
  | .key name => inferInstanceAs (Decidable name.IsPlainKey)
  | .index i => inferInstanceAs (Decidable (0 ≤ i))

def write : Segment → Text
  | .key name => "." ++ name
  | .index i => "[" ++ Text.ofInt i ++ "]"

def marks : Text := ['.', '[']

def script : Script Segment Segment where
  write := write
  look := id
  allows := IsPlain
  ends := StartsIn marks

theorem key_append_inj {name other : Text} (plain : name.IsPlainKey) (plain' : other.IsPlainKey)
    (ends : StartsIn marks r) (ends' : StartsIn marks r') (same : name ++ r = other ++ r') :
    name = other ∧ r = r' := by
  have unmarked {key : Text} (plain : key.IsPlainKey) : ∀ c ∈ key, decide (c ∉ marks) := by
    intro c member
    simp only [marks, List.mem_cons, List.not_mem_nil, or_false, decide_eq_true_eq]
    rintro (rfl | rfl)
    · exact plain.2.1 member
    · exact plain.2.2 member
  refine Text.stretch_append_inj (unmarked plain) (unmarked plain') ?_ ?_ same
  · exact fun c first => decide_eq_false (not_not_intro (ends c first))
  · exact fun c first => decide_eq_false (not_not_intro (ends' c first))

theorem index_append_inj {m n : Nat} (same : Text.ofNat m ++ ("]" ++ r) = Text.ofNat n ++ ("]" ++ r')) :
    m = n ∧ r = r' := by
  have digits : ∀ d < 10, CodePoint.ofNat (0x30 + d) ≠ ']' := by decide
  have inside (n : Nat) : ∀ c ∈ Text.ofNat n, decide (c ≠ ']') := by
    intro c member
    obtain ⟨d, small, rfl⟩ := Text.mem_ofNat member
    exact decide_eq_true (digits d small)
  have closed (r : Text) : ∀ c ∈ (("]" : Text) ++ r).head?, decide (c ≠ ']') = false := by
    rintro c ⟨⟩
    rfl
  obtain ⟨numbers, rest⟩ := Text.stretch_append_inj (inside m) (inside n) (closed r) (closed r') same
  exact ⟨Text.ofNat_injective numbers, List.append_cancel_left rest⟩

theorem legible {s : Segment} (plain : s.IsPlain) : script.Legible s := by
  intro t plain' r r' ends ends' same
  cases s with
  | key name =>
    cases t with
    | key other =>
      obtain ⟨rfl, rest⟩ := key_append_inj plain plain' ends ends' (List.cons.inj same).2
      exact ⟨rfl, rest⟩
    | index j => exact absurd (List.cons.inj same).1 (by decide)
  | index i =>
    cases t with
    | key other => exact absurd (List.cons.inj same).1 (by decide)
    | index j =>
      obtain ⟨m, rfl⟩ := Int.eq_ofNat_of_zero_le plain
      obtain ⟨n, rfl⟩ := Int.eq_ofNat_of_zero_le plain'
      simp only [script, write, List.append_assoc, List.append_cancel_left_eq] at same
      obtain ⟨rfl, rest⟩ := index_append_inj same
      exact ⟨rfl, rest⟩

theorem continues : script.Continues (· = []) where
  between s t := by
    cases s <;> (rintro c ⟨⟩; decide)
  last t stops := by
    rw [stops]
    exact nofun
  apart s t := by
    cases s <;> exact nofun

end Segment

/-! ## Whole paths -/

namespace Path

variable {path other : Path}

def IsPlain (path : Path) : Prop := ∀ s ∈ path, s.IsPlain

instance (path : Path) : Decidable path.IsPlain := inferInstanceAs (Decidable (∀ s ∈ path, s.IsPlain))

theorem foldl_extend {written : Text} (some : written ≠ []) (path : Path) :
    path.foldl Segment.extend written = written ++ path.flatMap Segment.write := by
  induction path generalizing written with
  | nil => exact (List.append_nil written).symm
  | cons s rest ih =>
    have step : Segment.extend written s = written ++ s.write := by
      cases s with
      | key name => rw [Segment.extend, if_neg (by simpa using some), Segment.write, List.append_assoc]
      | index i => simp only [Segment.extend, Segment.write, List.append_assoc]
    rw [List.foldl_cons, step, ih (List.append_ne_nil_of_left_ne_nil some _), List.flatMap_cons,
      List.append_assoc]

/-- The text of a path with a point in front of a key that comes first. -/
def pointed (t : Text) : Text :=
  if t = [] ∨ t.head? = some (CodePoint.ofChar '[') then t else "." ++ t

/-- With that point, the text is that of the segments one after another. -/
theorem pointed_format (plain : path.IsPlain) : pointed path.format = path.flatMap Segment.write := by
  cases path with
  | nil => rfl
  | cons s rest =>
    cases s with
    | key name =>
      obtain ⟨some, _, noBracket⟩ := plain _ List.mem_cons_self
      obtain ⟨c, more, rfl⟩ := List.exists_cons_of_ne_nil some
      have text : format (.key (c :: more) :: rest) = c :: more ++ rest.flatMap Segment.write :=
        foldl_extend some rest
      have first : c ≠ '[' := fun same => noBracket (same ▸ List.mem_cons_self)
      rw [text, pointed, if_neg (by simpa using first), List.flatMap_cons, Segment.write, List.append_assoc]
    | index i =>
      have text : format (.index i :: rest) = (Segment.index i).write ++ rest.flatMap Segment.write :=
        @foldl_extend (Segment.index i).write nofun rest
      rw [text, pointed, if_pos (.inr rfl), List.flatMap_cons]

theorem format_injOn (plain : path.IsPlain) (plain' : other.IsPlain) (same : path.format = other.format) :
    path = other := by
  have segments := congrArg pointed same
  rw [pointed_format plain, pointed_format plain'] at segments
  have look := Script.flatMap_append_inj Segment.continues
    (fun s member => Segment.legible (plain s member)) plain' rfl rfl (congrArg (· ++ []) segments)
  simpa [Segment.script] using look.1

theorem format_eq_nil_iff (plain : path.IsPlain) : path.format = [] ↔ path = [] := by
  constructor
  · exact fun same => format_injOn plain nofun same
  · rintro rfl
    rfl

/-- The name of the root is shown for the root, and for a member of the root that has it as its key. -/
theorem display_eq_root_iff (plain : path.IsPlain) :
    path.display = "root" ↔ path = [] ∨ path = [.key "root"] := by
  have named : IsPlain [.key "root"] := by decide
  rw [display]
  split
  · next none =>
    rw [List.isEmpty_iff, format_eq_nil_iff plain] at none
    exact ⟨fun _ => .inl none, fun _ => rfl⟩
  · next some =>
    rw [List.isEmpty_iff, format_eq_nil_iff plain] at some
    constructor
    · exact fun same => .inr (format_injOn plain named same)
    · rintro (none | rfl)
      · exact absurd none some
      · rfl

end Path

/-! ## Places of a sample -/

namespace Inference

open Json (Value)

theorem plain_of_place {v w : Value} (keys : ∀ key ∈ v.allKeys, key.IsPlainKey) {path place : Path}
    (plain : path.IsPlain) (member : (place, w) ∈ v.places path) : place.IsPlain := by
  induction v using Value.inside_induction generalizing path with
  | node v ih =>
    rw [Value.places_eq, List.mem_append, List.mem_flatMap, List.mem_singleton] at member
    rcases member with ⟨c, inside, below⟩ | here
    · have each : c.1.IsPlain ∧ ∀ key ∈ c.2.allKeys, key.IsPlainKey := by
        cases v with
        | array elements =>
          obtain ⟨i, index, found⟩ := Value.mem_inside_array.1 inside
          rw [index]
          exact ⟨Int.natCast_nonneg i, Value.forall_allKeys_array.1 keys _ (List.mem_of_getElem? found)⟩
        | object members =>
          obtain ⟨m, among, rfl⟩ := List.mem_map.1 inside
          exact Value.forall_allKeys_object.1 keys m among
        | _ => cases inside
      exact ih c inside each.2 (List.forall_mem_append.2 ⟨plain, List.forall_mem_singleton.2 each.1⟩) below
    · cases here
      exact plain

theorem path_of_diagnostic {o : Options} {v : Value} {d : Diagnostic}
    (reported : d ∈ (infer o v).diagnostics) : d.path ∈ (v.places []).map (·.1) := by
  rw [infer_diagnostics, List.mem_append, notes_places, List.mem_filterMap] at reported
  rcases reported with ofRoot | ⟨place, member, found⟩
  · have here : ([], v) ∈ v.places [] := by
      rw [Value.places_eq]
      exact List.mem_append_right _ (List.mem_singleton_self _)
    simp only [noted, Option.mem_toList, Option.map_eq_some_iff] at ofRoot
    obtain ⟨_, _, rfl⟩ := ofRoot
    exact List.mem_map.2 ⟨_, here, rfl⟩
  · obtain ⟨_, _, rfl⟩ := Option.map_eq_some_iff.1 found
    exact List.mem_map.2 ⟨place, member, rfl⟩

structure TellsPlaces (o : Options) (v : Value) : Prop where
  places : ∀ path w, (path, w) ∈ v.places [] ↔ v.at? path = some w
  apart : ((v.places []).map (·.1.format)).Nodup
  root : ∀ place ∈ v.places [], place.1.format = [] ↔ place.1 = []
  /-- The name shown for the root is shown for no other place but a member of the root with that key. -/
  display : ∀ place ∈ v.places [], place.1.display = "root" ↔ place.1 = [] ∨ place.1 = [.key "root"]
  reported : ∀ d ∈ (infer o v).diagnostics, d.path ∈ (v.places []).map (·.1)

theorem tellsPlaces (o : Options) {v : Value} (distinct : v.keysDistinct)
    (keys : ∀ key ∈ v.allKeys, key.IsPlainKey) : TellsPlaces o v := by
  have plain : ∀ place ∈ v.places [], place.1.IsPlain := fun place member =>
    plain_of_place keys (List.forall_mem_nil _) member
  constructor
  · intro path w
    simp [Value.mem_places distinct]
  · have paths : ∀ path ∈ (v.places []).map (·.1), path.IsPlain := List.forall_mem_map.2 plain
    have texts := (Value.nodup_places distinct []).map_on fun path member other member' same =>
      Path.format_injOn (paths path member) (paths other member') same
    rwa [List.map_map] at texts
  · exact fun place member => Path.format_eq_nil_iff (plain place member)
  · exact fun place member => Path.display_eq_root_iff (plain place member)
  · exact fun d reported => path_of_diagnostic reported

/-- A path of plain segments is told by its text, and so is the place of a diagnostic in a sample that has
only plain keys. -/
theorem format_tells :
    (∀ path other : Path, path.IsPlain → other.IsPlain → path.format = other.format → path = other) ∧
      ∀ (o : Options) (v : Value), v.keysDistinct → (∀ key ∈ v.allKeys, key.IsPlainKey) → TellsPlaces o v :=
  ⟨fun _ _ plain plain' same => Path.format_injOn plain plain' same, fun o _ distinct keys =>
    tellsPlaces o distinct keys⟩

def bracketed : Value := .object [
  ("0", .array [.array [], .object [("0]", .array [])]]),
  ("root", .array []),
  ("]", .object [("1", .array [.array []]), ("-1", .string "2024-02-29")])]

theorem format_tells_bracketed :
    Path.IsPlain [.key "0", .index 1, .key "0]"] ∧
      (∀ path : Path, path.IsPlain → path.format = "0[1].0]" → path = [.key "0", .index 1, .key "0]"]) ∧
      bracketed.keysDistinct ∧ (∀ key ∈ bracketed.allKeys, key.IsPlainKey) ∧
      TellsPlaces { detectsDates := true } bracketed := by
  have plain : Path.IsPlain [.key "0", .index 1, .key "0]"] := by decide
  have distinct : bracketed.keysDistinct = true := by decide
  have keys : ∀ key ∈ bracketed.allKeys, key.IsPlainKey := by decide
  exact ⟨plain, fun path plain' same => format_tells.1 path _ plain' plain same, distinct, keys,
    format_tells.2 { detectsDates := true } bracketed distinct keys⟩

end Inference

end JsonShape
