import JsonShape.Proofs.PropertyNames

/-! Indentation of examples.

An example at a depth is the example at depth nought with spaces after every line end. Every line but the first
is that of a property or the closing brace of an object, and it is indented by two spaces for each object around
it. Keys and values have no line ends of their own, so there are no other lines.
-/

set_option autoImplicit false

namespace JsonShape

namespace Text

def OneLine (t : Text) : Prop := CodePoint.ofChar '\n' ∉ t

instance (t : Text) : Decidable t.OneLine := inferInstanceAs (Decidable (¬ _))

variable {t u : Text}

theorem OneLine.append (first : t.OneLine) (second : u.OneLine) : OneLine (t ++ u) := by
  simp only [OneLine, List.mem_append, not_or]
  exact ⟨first, second⟩

theorem oneLine_of_isPrintable (printable : t.IsPrintable) : t.OneLine := fun member =>
  absurd (printable _ member) (by decide)

/-- The text with spaces after every line end, two for each level. -/
def shifted (depth : Nat) (t : Text) : Text :=
  t.flatMap fun c : CodePoint => if c = '\n' then c :: List.replicate (2 * depth) (CodePoint.ofChar ' ') else [c]

theorem shifted_append (depth : Nat) (t u : Text) :
    shifted depth (t ++ u) = shifted depth t ++ shifted depth u :=
  List.flatMap_append

theorem shifted_of_oneLine (depth : Nat) (oneLine : t.OneLine) : shifted depth t = t := by
  induction t with
  | nil => rfl
  | cons c rest ih =>
    obtain ⟨other, later⟩ := not_or.1 (mt List.mem_cons.2 oneLine)
    rw [shifted, List.flatMap_cons, if_neg (Ne.symm other)]
    exact congrArg (c :: ·) (ih later)

theorem shifted_newline (depth : Nat) (t : Text) :
    shifted depth ("\n" ++ t) = "\n" ++ (Example.indent depth ++ shifted depth t) := by
  have newline : shifted depth "\n" = "\n" ++ Example.indent depth := List.append_nil _
  rw [shifted_append, newline, List.append_assoc]

def indentation (line : Text) : Nat := (line.takeWhile fun c : CodePoint => c = ' ').length

theorem indentation_indent {c : CodePoint} (visible : c ≠ ' ') (depth : Nat) (rest : Text) :
    indentation (Example.indent depth ++ c :: rest) = 2 * depth := by
  have spaces : ∀ c ∈ Example.indent depth, decide (c = CodePoint.ofChar ' ') := fun c member =>
    decide_eq_true (List.eq_of_mem_replicate member)
  rw [indentation, List.takeWhile_append_of_pos spaces, List.takeWhile_cons_of_neg (by simpa using visible),
    List.append_nil, Example.indent, List.length_replicate]

theorem oneLine_indent (depth : Nat) : OneLine (Example.indent depth) := fun member =>
  absurd (List.eq_of_mem_replicate member) (by decide)

end Text

/-! ## Keys -/

namespace Style

variable (style : Style) (key : Text)

theorem keyName_cases : (style.keyName key).isIdentifier ∨ style.keyName key = key.quoted := by
  by_cases renamed : style.renames key
  · rw [keyName_of_renames renamed]
    exact .inl (Text.isIdentifier_camel (Bool.and_eq_true_iff.1 renamed).2)
  · have kept : style.keyName key = key.propertyKey := if_neg renamed
    rw [kept, Text.propertyKey]
    split
    · next named => exact .inl named
    · exact .inr rfl

theorem keyName_oneLine : (style.keyName key).OneLine := by
  apply Text.oneLine_of_isPrintable
  rcases style.keyName_cases key with named | quoted
  · exact fun c member => CodePoint.isPrintableAscii_of_part (Text.isWord_of_isIdentifier named c member)
  · rw [quoted]
    exact Text.isPrintable_quoted key

theorem exists_keyName_cons : ∃ (c : CodePoint) (rest : Text), style.keyName key = c :: rest ∧ c ≠ ' ' := by
  rcases style.keyName_cases key with named | quoted
  · cases parts : style.keyName key with
    | nil =>
      rw [parts] at named
      cases named
    | cons c rest =>
      rw [parts] at named
      refine ⟨c, rest, rfl, ?_⟩
      rintro rfl
      exact absurd (Text.isWord_of_isIdentifier named _ List.mem_cons_self) (by decide)
  · exact ⟨_, _, quoted, by decide⟩

end Style

/-! ## The shift -/

namespace Example

variable (style : Style)

/-- What has nothing inside is written on one line, at any depth alike. -/
theorem valueOf_leaf {s : Shape} (leaf : s.inside = []) :
    ∃ t : Text, t.OneLine ∧ ∀ depth, valueOf style s depth = t := by
  have at_ (depth : Nat) := valueOf_eq style s depth
  cases s with
  | array element => cases leaf
  | union variants =>
    obtain rfl : variants = [] := leaf
    exact ⟨[], List.not_mem_nil, at_⟩
  | object name properties =>
    obtain rfl := List.map_eq_nil_iff.1 leaf
    exact ⟨"\x7b\x7d", by decide, at_⟩
  | string => exact ⟨"\"\"", by decide, at_⟩
  | number => exact ⟨"0", by decide, at_⟩
  | boolean => exact ⟨"false", by decide, at_⟩
  | null => exact ⟨"null", by decide, at_⟩
  | unknown => exact ⟨"undefined", by decide, at_⟩
  | date => exact ⟨"\"2025-01-01T00:00:00.000Z\"", by decide, at_⟩

theorem valueOf_array (element : Shape) (depth : Nat) :
    valueOf style (.array element) depth = "[" ++ valueOf style element depth ++ "]" :=
  valueOf_eq style (.array element) depth

theorem variants_eq_nil {variants : List Shape} (none : Shape.representative? variants = none) :
    variants = [] := by
  by_contra some
  obtain ⟨s, _, shown⟩ := Shape.exists_representative some
  cases none.symm.trans shown

theorem block_eq (depth : Nat) {lines : List Text} (some : lines ≠ []) :
    Literal.block depth lines =
      "\x7b" ++ (lines.flatMap (("\n" : Text) ++ ·) ++ ("\n" ++ (indent depth ++ "\x7d"))) := by
  cases lines with
  | nil => exact absurd rfl some
  | cons first rest =>
    have opening : ("\x7b\n" : Text) = "\x7b" ++ "\n" := by decide
    rw [Literal.block, List.isEmpty_cons, if_neg Bool.false_ne_true, Text.joined_cons, List.flatMap_cons,
      opening]
    simp only [List.append_assoc]

theorem indent_append (extra depth : Nat) : indent extra ++ indent depth = indent (depth + extra) := by
  rw [indent, indent, indent, List.replicate_append_replicate, Nat.add_comm depth, Nat.mul_add]

def front (depth : Nat) (name : Text) : Text := indent (depth + 1) ++ (name ++ ": ")

theorem line_eq (depth : Nat) (name value : Text) :
    Literal.line depth name value = front depth name ++ (value ++ ",") := by
  simp only [Literal.line, front, List.append_assoc]

theorem front_oneLine (depth : Nat) {name : Text} (oneLine : name.OneLine) : (front depth name).OneLine :=
  (Text.oneLine_indent _).append (oneLine.append (by decide))

theorem shifted_line (extra depth : Nat) {name : Text} (oneLine : name.OneLine) (value : Text) :
    indent extra ++ (Literal.line depth name value).shifted extra =
      Literal.line (depth + extra) name (value.shifted extra) := by
  have comma : Text.OneLine "," := by decide
  have deeper : indent extra ++ front depth name = front (depth + extra) name := by
    rw [front, front, ← List.append_assoc, indent_append, Nat.add_right_comm]
  rw [line_eq, line_eq, Text.shifted_append, Text.shifted_append, ← List.append_assoc,
    Text.shifted_of_oneLine extra (front_oneLine depth oneLine), Text.shifted_of_oneLine extra comma, deeper]

theorem shifted_block (extra depth : Nat) (lines : List Text) :
    (Literal.block depth lines).shifted extra =
      Literal.block (depth + extra) (lines.map fun l => indent extra ++ l.shifted extra) := by
  by_cases none : lines = []
  · subst none
    rfl
  · have each : Text.shifted extra (lines.flatMap (("\n" : Text) ++ ·)) =
        (lines.map fun l => indent extra ++ l.shifted extra).flatMap (("\n" : Text) ++ ·) := by
      rw [Text.shifted, List.flatMap_assoc, List.flatMap_map]
      exact List.flatMap_congr fun l _ => Text.shifted_newline extra l
    have opening : Text.OneLine "\x7b" := by decide
    have closing : (indent depth ++ "\x7d").OneLine := (Text.oneLine_indent depth).append (by decide)
    rw [block_eq depth none, block_eq _ (by simpa using none), Text.shifted_append, Text.shifted_append,
      Text.shifted_newline, each, Text.shifted_of_oneLine extra opening, Text.shifted_of_oneLine extra closing,
      ← List.append_assoc (indent extra), indent_append]

theorem shifted_leaf {s : Shape} (leaf : s.inside = []) (depth extra : Nat) :
    valueOf style s (depth + extra) = (valueOf style s depth).shifted extra := by
  obtain ⟨t, oneLine, written⟩ := valueOf_leaf style leaf
  rw [written, written, Text.shifted_of_oneLine extra oneLine]

/-- More depth is more spaces after every line end. -/
theorem valueOf_add (s : Shape) (depth extra : Nat) :
    valueOf style s (depth + extra) = (valueOf style s depth).shifted extra := by
  induction s generalizing depth with
  | array element ih =>
    rw [valueOf_array, valueOf_array, Text.shifted_append, Text.shifted_append, ih]
    rfl
  | union variants ih =>
    cases shown : Shape.representative? variants with
    | none => exact shifted_leaf style (s := .union variants) (variants_eq_nil shown) depth extra
    | some v =>
      rw [valueOf_union style shown, valueOf_union style shown]
      exact ih v (Shape.mem_of_representative shown) depth
  | object name properties ih =>
    rw [valueOf_object, valueOf_object, shifted_block, List.map_map]
    refine congrArg (Literal.block _) (List.map_congr_left fun p member => ?_)
    rw [Function.comp_apply, shifted_line extra depth (style.keyName_oneLine p.key)]
    cases p.nullable with
    | true => rfl
    | false =>
      rw [if_neg Bool.false_ne_true, if_neg Bool.false_ne_true, ← ih p member, Nat.add_right_comm]
  | _ => exact shifted_leaf style rfl depth extra

/-! ## The lines -/

/-- What a line of an example is for, other than the first. -/
inductive Row where
  /-- A property of an object inside so many others. -/
  | property (nesting : Nat) (key : Text)
  | closing (nesting : Nat)
  deriving DecidableEq

namespace Row

def level : Row → Nat
  | property nesting _ => nesting + 1
  | closing nesting => nesting

def opening : Row → Text
  | property _ key => style.keyName key ++ ": "
  | closing _ => "\x7d"

def start (depth : Nat) (row : Row) : Text := indent (depth + row.level) ++ row.opening style

/-- A line that starts as the row says, behind neither more nor fewer spaces. -/
structure Begins (depth : Nat) (row : Row) (line : Text) : Prop where
  indented : line.indentation = 2 * (depth + row.level)
  opened : row.start style depth <+: line

theorem exists_opening_cons (row : Row) :
    ∃ (c : CodePoint) (rest : Text), row.opening style = c :: rest ∧ c ≠ ' ' := by
  cases row with
  | property nesting key =>
    obtain ⟨c, rest, parts, visible⟩ := style.exists_keyName_cons key
    exact ⟨c, rest ++ ": ", by rw [opening, parts]; rfl, visible⟩
  | closing nesting => exact ⟨'\x7d', [], rfl, by decide⟩

theorem start_oneLine (depth : Nat) (row : Row) : (row.start style depth).OneLine := by
  refine (Text.oneLine_indent _).append ?_
  cases row with
  | property nesting key => exact (style.keyName_oneLine key).append (by decide)
  | closing nesting =>
    have brace : Text.OneLine "\x7d" := by decide
    exact brace

theorem begins_append (depth : Nat) (row : Row) (rest : Text) :
    row.Begins style depth (row.start style depth ++ rest) where
  indented := by
    obtain ⟨c, more, parts, visible⟩ := row.exists_opening_cons style
    rw [start, parts, List.append_assoc, List.cons_append]
    exact Text.indentation_indent visible _ _
  opened := List.prefix_append _ _

end Row

mutual

def rows (nesting : Nat) : Shape → List Row
  | .array element => rows nesting element
  | .union variants => rowsOfVariants nesting variants
  | .object _ properties =>
    if properties.isEmpty then [] else rowsOfProperties nesting properties ++ [.closing nesting]
  | _ => []

def rowsOfVariants (nesting : Nat) : List Shape → List Row
  | [] => []
  | s :: rest => if s.isNull then rowsOfVariants nesting rest else rows nesting s

def rowsOfProperties (nesting : Nat) : List (Property Shape) → List Row
  | [] => []
  | p :: rest =>
    .property nesting p.key ::
      ((if p.nullable then [] else rows (nesting + 1) p.shape) ++ rowsOfProperties nesting rest)

end

theorem rows_leaf {s : Shape} (leaf : s.inside = []) (nesting : Nat) : rows nesting s = [] := by
  cases s with
  | array element => cases leaf
  | union variants =>
    obtain rfl : variants = [] := leaf
    rfl
  | object name properties =>
    obtain rfl := List.map_eq_nil_iff.1 leaf
    rfl
  | _ => rfl

theorem rowsOfVariants_eq (nesting : Nat) (variants : List Shape) :
    rowsOfVariants nesting variants = ((variants.find? (!·.isNull)).map (rows nesting)).getD [] := by
  induction variants with
  | nil => rfl
  | cons s rest ih =>
    rw [rowsOfVariants, List.find?_cons]
    cases s.isNull with
    | true => exact ih
    | false => rfl

theorem rows_union {variants : List Shape} {s : Shape} (shown : Shape.representative? variants = some s)
    (nesting : Nat) : rows nesting (.union variants) = rows nesting s := by
  rw [rows, rowsOfVariants_eq]
  exact Shape.find?_of_representative (rows nesting) shown

theorem rowsOfProperties_eq (nesting : Nat) (properties : List (Property Shape)) :
    rowsOfProperties nesting properties = properties.flatMap fun p =>
      .property nesting p.key :: if p.nullable then [] else rows (nesting + 1) p.shape := by
  induction properties with
  | nil => rfl
  | cons p rest ih => rw [rowsOfProperties, ih, List.flatMap_cons, List.cons_append]

/-- Behind each line end of the text the next row starts. -/
inductive Lays (depth : Nat) : List Row → Text → Prop where
  | last {t : Text} (oneLine : t.OneLine) : Lays depth [] t
  | row {row : Row} {rows : List Row} {before t : Text} (oneLine : before.OneLine)
      (starts : row.start style depth <+: t) (later : Lays depth rows t) :
      Lays depth (row :: rows) (before ++ ("\n" ++ t))

variable {style} {depth : Nat} {first second : List Row} {t u : Text}

theorem Lays.append (lays : Lays style depth first t) (more : Lays style depth second u) :
    Lays style depth (first ++ second) (t ++ u) := by
  induction lays with
  | last oneLine =>
    cases more with
    | last oneLine' => exact .last (oneLine.append oneLine')
    | row oneLine' starts later =>
      rw [← List.append_assoc]
      exact .row (oneLine.append oneLine') starts later
  | row oneLine starts _ ih =>
    rw [List.append_assoc, List.append_assoc]
    exact .row oneLine (starts.trans (List.prefix_append _ u)) ih

theorem lays_start (row : Row) : Lays style depth [row] ("\n" ++ row.start style depth) :=
  @Lays.row style depth row [] [] _ List.not_mem_nil (List.prefix_refl _)
    (.last (row.start_oneLine style depth))

theorem Lays.flatMap {α : Type} {rows : α → List Row} {text : α → Text} {as : List α}
    (each : ∀ a ∈ as, Lays style depth (rows a) (text a)) :
    Lays style depth (as.flatMap rows) (as.flatMap text) := by
  induction as with
  | nil => exact .last List.not_mem_nil
  | cons a rest ih =>
    rw [List.forall_mem_cons] at each
    exact each.1.append (ih each.2)

theorem lays_leaf {s : Shape} (leaf : s.inside = []) (nesting : Nat) :
    Lays style depth (rows nesting s) (valueOf style s (depth + nesting)) := by
  obtain ⟨t, oneLine, written⟩ := valueOf_leaf style leaf
  rw [rows_leaf leaf, written]
  exact .last oneLine

theorem lays_line {nesting : Nat} (key : Text) {value : Text} {inner : List Row}
    (lays : Lays style depth inner value) :
    Lays style depth (.property nesting key :: inner)
      ("\n" ++ Literal.line (depth + nesting) (style.keyName key) value) := by
  have comma : Text.OneLine "," := by decide
  have whole := (lays_start (.property nesting key)).append (lays.append (.last comma))
  rw [List.append_nil, List.append_assoc] at whole
  rwa [line_eq]

/-- The example of a shape inside some objects has the rows of the shape. -/
theorem lays_valueOf (s : Shape) (nesting : Nat) :
    Lays style depth (rows nesting s) (valueOf style s (depth + nesting)) := by
  induction s generalizing nesting with
  | array element ih =>
    have opening : Text.OneLine "[" := by decide
    have closing : Text.OneLine "]" := by decide
    have whole := ((Lays.last opening).append (ih nesting)).append (.last closing)
    rwa [List.nil_append, List.append_nil, ← valueOf_array] at whole
  | union variants ih =>
    cases shown : Shape.representative? variants with
    | none => exact lays_leaf (s := .union variants) (variants_eq_nil shown) nesting
    | some v =>
      rw [valueOf_union style shown, rows_union shown]
      exact ih v (Shape.mem_of_representative shown) nesting
  | object name properties ih =>
    by_cases none : properties = []
    · subst none
      exact lays_leaf rfl nesting
    have some : properties.isEmpty = false := List.isEmpty_eq_false_iff.2 none
    have brace : Text.OneLine "\x7b" := by decide
    have null : Text.OneLine "null" := by decide
    have each : ∀ p ∈ properties, Lays style depth
        (.property nesting p.key :: if p.nullable then [] else rows (nesting + 1) p.shape)
        ("\n" ++ Literal.line (depth + nesting) (style.keyName p.key)
          (if p.nullable then "null" else valueOf style p.shape (depth + nesting + 1))) := by
      intro p member
      apply lays_line
      cases p.nullable with
      | true => exact .last null
      | false => exact ih p member (nesting + 1)
    have whole := (Lays.last brace).append ((Lays.flatMap each).append (lays_start (.closing nesting)))
    rw [valueOf_object, block_eq _ (by simpa using none), List.flatMap_map, rows, some,
      if_neg Bool.false_ne_true, rowsOfProperties_eq]
    exact whole
  | _ => exact lays_leaf rfl nesting

/-! ## Cutting the text into lines -/

theorem splitOn_of_oneLine {t : Text} (oneLine : t.OneLine) : t.splitOn (CodePoint.ofChar '\n') = [t] := by
  rw [List.splitOn_eq_splitOnP]
  exact List.splitOnP_eq_singleton fun c member => beq_false_of_ne fun same => oneLine (same ▸ member)

theorem splitOn_newline {before : Text} (oneLine : before.OneLine) (t : Text) :
    (before ++ ("\n" ++ t)).splitOn (CodePoint.ofChar '\n') = before :: t.splitOn (CodePoint.ofChar '\n') := by
  have cut := List.splitOn_append_cons_self (a := CodePoint.ofChar '\n') before t
  rwa [splitOn_of_oneLine oneLine] at cut

/-- What stands on one line at the front of a text starts its first line. -/
theorem exists_splitOn {front : Text} (oneLine : front.OneLine) (t : Text) :
    ∃ rest later, (front ++ t).splitOn (CodePoint.ofChar '\n') = (front ++ rest) :: later := by
  by_cases broken : CodePoint.ofChar '\n' ∈ t
  · obtain ⟨before, after, rfl, unbroken⟩ := List.eq_append_cons_of_mem broken
    refine ⟨before, after.splitOn (CodePoint.ofChar '\n'), ?_⟩
    rw [← List.append_assoc]
    exact splitOn_newline (oneLine.append unbroken) after
  · exact ⟨t, [], splitOn_of_oneLine (oneLine.append broken)⟩

theorem Lays.lines {rows : List Row} {t : Text} (lays : Lays style depth rows t) :
    List.Forall₂ (Row.Begins style depth) rows (t.splitOn (CodePoint.ofChar '\n')).tail := by
  induction lays with
  | last oneLine =>
    rw [splitOn_of_oneLine oneLine]
    exact .nil
  | @row row rows before t oneLine starts later ih =>
    obtain ⟨rest, rfl⟩ := starts
    obtain ⟨onLine, later, cut⟩ := exists_splitOn (row.start_oneLine style depth) rest
    rw [splitOn_newline oneLine, List.tail_cons, cut]
    rw [cut] at ih
    exact .cons (row.begins_append style depth onLine) ih

/-! ## Indented examples -/

variable (style)

structure Indents (s : Shape) (depth : Nat) : Prop where
  shown : s.showsEmptyUnion = false
  shifted : valueOf style s depth = (valueOf style s 0).shifted depth
  /-- The lines behind the first are those of the properties and of the ends of objects, each as far to the
  right as the objects around it demand. -/
  lines : List.Forall₂ (Row.Begins style depth) (rows 0 s)
    ((valueOf style s depth).splitOn (CodePoint.ofChar '\n')).tail
  keys : ∀ key, CodePoint.ofChar '\n' ∉ style.keyName key
  leaves : ∀ leaf : Shape, leaf.inside = [] → ∀ depth, CodePoint.ofChar '\n' ∉ valueOf style leaf depth

theorem indents {s : Shape} (filled : s.all Shape.hasVariants) (depth : Nat) : Indents style s depth where
  shown := Shape.shown_of_hasVariants filled
  shifted := by
    have moved := valueOf_add style s 0 depth
    rwa [Nat.zero_add] at moved
  lines := (lays_valueOf s 0).lines
  keys := style.keyName_oneLine
  leaves leaf nothing depth := by
    obtain ⟨t, oneLine, written⟩ := valueOf_leaf style nothing
    rw [written]
    exact oneLine

theorem indents_tangled :
    tangled.all Shape.hasVariants ∧ Indents { camelKeys := true } tangled 2 := by
  have filled : tangled.all Shape.hasVariants := by decide
  exact ⟨filled, indents { camelKeys := true } filled 2⟩

example : rows 0 tangled = [
    .property 0 "first_name", .property 0 "last_name", .property 0 "seen-at", .property 0 "owner",
    .property 0 "tags", .property 1 "a", .property 1 "b", .closing 1, .closing 0] := by decide

end Example

end JsonShape
