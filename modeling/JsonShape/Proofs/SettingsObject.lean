import JsonShape.Settings
import JsonShape.Naming.Snake
import Mathlib.Data.List.Induction

/-! Settings and the objects they are read from.

An option may be given under its name or under its camel case, and the last member under either counts, inside
the formatter member as outside. Members under other keys change nothing on both levels, unless they go by the
name of an attribute. Only an output style can be wrong then, and a wrong one is refused even if a later member
gives another. Settings written as an object are read from it again.
-/

set_option autoImplicit false

namespace JsonShape

open Json (Value Member)

/-! ## Keys -/

/-- Whether a key gives an option: it is the name of the option or the camel case of it. -/
def GivesOption (name key : Text) : Prop := key = name ∨ key = name.camel

instance (name key : Text) : Decidable (GivesOption name key) := inferInstanceAs (Decidable (_ ∨ _))

def formatterOptionNames : List Text := ["enabled", "print_width", "tab_width", "timeout"]

def settingNames : List Text :=
  ["root_type_name", "output_style", "strict_objects", "detect_dates", "snake_to_camel", "formatter"]

def attributeNames : List Text := Attribute.all.map Attribute.name

theorem settingName_eq_iff {name : Text} (listed : name ∈ settingNames ++ formatterOptionNames) (key : Text) :
    settingName key = name ↔ GivesOption name key := by
  have aliased : ∀ name ∈ settingNames ++ formatterOptionNames, ∀ a ∈ settingAliases,
      a.2 = name → a.1 = name.camel := by decide +kernel
  have named : ∀ name ∈ settingNames ++ formatterOptionNames,
      settingName name = name ∧ settingName name.camel = name := by decide +kernel
  constructor
  · intro same
    unfold settingName at same
    cases found : settingAliases.lookup key with
    | none =>
      rw [found, Option.getD_none] at same
      exact .inl same
    | some other =>
      rw [found, Option.getD_some] at same
      obtain ⟨before, after, table, _⟩ := List.lookup_eq_some_iff.1 found
      have member : (key, other) ∈ settingAliases :=
        table ▸ List.mem_append_right before List.mem_cons_self
      exact .inr (aliased name listed (key, other) member same)
  · rintro (rfl | rfl)
    · exact (named key listed).1
    · exact (named name listed).2

/-- Attributes have no other spelling. -/
theorem settingName_not_attribute {key : Text} (ordinary : key ∉ attributeNames) :
    settingName key ∉ attributeNames := by
  have options : ∀ a ∈ settingAliases, a.2 ∉ attributeNames := by decide +kernel
  unfold settingName
  cases found : settingAliases.lookup key with
  | none => exact ordinary
  | some name =>
    obtain ⟨before, after, table, _⟩ := List.lookup_eq_some_iff.1 found
    exact options (key, name) (table ▸ List.mem_append_right before List.mem_cons_self)

theorem Attribute.ofName?_eq_none {name : Text} (ordinary : name ∉ attributeNames) : ofName? name = none := by
  rw [ofName?, List.find?_eq_none]
  intro a listed same
  exact ordinary (List.mem_map.2 ⟨a, listed, of_decide_eq_true same⟩)

def lastValue? (name : Text) (members : List Member) : Option Value :=
  (members.reverse.find? fun m => GivesOption name m.1).map (·.2)

theorem lastValue?_concat (name : Text) (members : List Member) (m : Member) :
    lastValue? name (members ++ [m]) =
      if GivesOption name m.1 then some m.2 else lastValue? name members := by
  unfold lastValue?
  rw [List.reverse_append, List.reverse_singleton, List.singleton_append, List.find?_cons]
  split
  · next gives => rw [if_pos (of_decide_eq_true gives)]; rfl
  · next other => rw [if_neg (of_decide_eq_false other)]

/-- A value that the last member leaves as it is, or sets. -/
theorem getD_lastValue?_concat {name : Text} (listed : name ∈ settingNames ++ formatterOptionNames)
    (members : List Member) (m : Member) (default : Value) :
    (lastValue? name (members ++ [m])).getD default =
      if settingName m.1 = name then m.2 else (lastValue? name members).getD default := by
  simp only [lastValue?_concat, settingName_eq_iff listed]
  split <;> rfl

/-! ## The formatter -/

namespace FormatterOptions

/-- Every option is what the last member that gives it says, or its default. -/
structure Holds (members : List Member) (o : FormatterOptions) : Prop where
  enabled : o.enabled = (lastValue? "enabled" members).getD (.bool false)
  printWidth : o.printWidth = (lastValue? "print_width" members).getD (.number (.integer 80))
  tabWidth : o.tabWidth = (lastValue? "tab_width" members).getD (.number (.integer 2))
  timeout : o.timeout = (lastValue? "timeout" members).getD (.number (.integer 30))

theorem holds_nothing : Holds [] {} := ⟨rfl, rfl, rfl, rfl⟩

theorem set_other {m : Member} (other : settingName m.1 ∉ formatterOptionNames) (o : FormatterOptions) :
    o.set m = o := by
  simp only [formatterOptionNames, List.mem_cons, not_or] at other
  simp [set, other]

/-- One member sets the option that it gives and leaves the others. -/
theorem set_eq (o : FormatterOptions) (m : Member) :
    (o.set m).enabled = (if settingName m.1 = "enabled" then m.2 else o.enabled) ∧
      (o.set m).printWidth = (if settingName m.1 = "print_width" then m.2 else o.printWidth) ∧
      (o.set m).tabWidth = (if settingName m.1 = "tab_width" then m.2 else o.tabWidth) ∧
      (o.set m).timeout = if settingName m.1 = "timeout" then m.2 else o.timeout := by
  by_cases known : settingName m.1 ∈ formatterOptionNames
  · unfold set
    dsimp only
    generalize settingName m.1 = name at known
    simp only [formatterOptionNames, List.mem_cons, List.not_mem_nil, or_false] at known
    rcases known with rfl | rfl | rfl | rfl <;> exact ⟨rfl, rfl, rfl, rfl⟩
  · rw [set_other known]
    simp only [formatterOptionNames, List.mem_cons, not_or] at known
    simp [known]

theorem Holds.set {members : List Member} {o : FormatterOptions} (before : o.Holds members) (m : Member) :
    (o.set m).Holds (members ++ [m]) := by
  obtain ⟨enabled, printWidth, tabWidth, timeout⟩ := set_eq o m
  constructor
  · rw [getD_lastValue?_concat (by decide), enabled, before.enabled]
  · rw [getD_lastValue?_concat (by decide), printWidth, before.printWidth]
  · rw [getD_lastValue?_concat (by decide), tabWidth, before.tabWidth]
  · rw [getD_lastValue?_concat (by decide), timeout, before.timeout]

theorem holds_ofMembers (members : List Member) : (ofMembers members).Holds members := by
  unfold ofMembers
  induction members using List.reverseRecOn with
  | nil => exact holds_nothing
  | append_singleton members m ih =>
    rw [List.foldl_append]
    exact ih.set m

def relevant (members : List Member) : List Member :=
  members.filter fun m => settingName m.1 ∈ formatterOptionNames

theorem ofMembers_relevant (members : List Member) : ofMembers (relevant members) = ofMembers members := by
  unfold ofMembers relevant
  rw [List.foldl_filter]
  congr 1
  funext o m
  split
  · rfl
  · next other => rw [set_other (by simpa using other)]

end FormatterOptions

/-! ## The output style -/

theorem OutputStyle.ofValue_name (style : OutputStyle) : ofValue (.string style.name) = .ok style := by
  cases style <;> rfl

theorem OutputStyle.ofValue_unknown {v : Value} (unknown : ∀ style : OutputStyle, v ≠ .string style.name) :
    ofValue v = .error (.unknownStyle v) := by
  unfold ofValue
  split
  · next name =>
    cases found : OutputStyle.ofName? name with
    | none => rfl
    | some style =>
      have same := List.find?_some found
      exact absurd (congrArg Value.string (of_decide_eq_true same).symm) (unknown style)
  · rfl

def IsUnknownStyle (m : Member) : Prop :=
  GivesOption "output_style" m.1 ∧ m.2 ≠ .string "type" ∧ m.2 ≠ .string "interface"

/-! ## Settings -/

structure Settings.Holds (members : List Member) (s : Settings) : Prop where
  rootName : s.rootName = (lastValue? "root_type_name" members).getD (.string "Root")
  outputStyle : .string s.outputStyle.name = (lastValue? "output_style" members).getD (.string "type")
  strictObjects : s.strictObjects = (lastValue? "strict_objects" members).getD (.bool false)
  detectDates : s.detectDates = (lastValue? "detect_dates" members).getD (.bool false)
  snakeToCamel : s.snakeToCamel = (lastValue? "snake_to_camel" members).getD (.bool false)
  formatter : ∃ inner o, (lastValue? "formatter" members).getD (.object []) = .object inner ∧
    s.formatter = .options o ∧ o.Holds inner

theorem Settings.holds_nothing : Holds [] {} where
  rootName := rfl
  outputStyle := rfl
  strictObjects := rfl
  detectDates := rfl
  snakeToCamel := rfl
  formatter := ⟨[], {}, rfl, rfl, FormatterOptions.holds_nothing⟩

structure Settings.Sets (m : Member) (s s' : Settings) : Prop where
  rootName : s'.rootName = if settingName m.1 = "root_type_name" then m.2 else s.rootName
  outputStyle : .string s'.outputStyle.name =
    if settingName m.1 = "output_style" then m.2 else .string s.outputStyle.name
  strictObjects : s'.strictObjects = if settingName m.1 = "strict_objects" then m.2 else s.strictObjects
  detectDates : s'.detectDates = if settingName m.1 = "detect_dates" then m.2 else s.detectDates
  snakeToCamel : s'.snakeToCamel = if settingName m.1 = "snake_to_camel" then m.2 else s.snakeToCamel
  formatter : s'.formatter = if settingName m.1 = "formatter" then .ofValue m.2 else s.formatter

namespace SettingsObject

theorem set_other {m : Member} (other : settingName m.1 ∉ settingNames) (ordinary : m.1 ∉ attributeNames)
    (s : SettingsObject) : s.set m = .ok s := by
  have unnamed := Attribute.ofName?_eq_none (settingName_not_attribute ordinary)
  simp only [settingNames, List.mem_cons, not_or] at other
  simp [set, other, unnamed]

theorem set_style {m : Member} (gives : settingName m.1 = "output_style") (s : Settings) :
    set s m = (OutputStyle.ofValue m.2).map fun style => { toSettings := { s with outputStyle := style } } := by
  unfold set
  dsimp only
  rw [gives]
  rfl

theorem set_unknownStyle {m : Member} (unknown : IsUnknownStyle m) (s : Settings) :
    set s m = .error (.unknownStyle m.2) := by
  obtain ⟨gives, noType, noInterface⟩ := unknown
  have refused : OutputStyle.ofValue m.2 = .error (.unknownStyle m.2) := by
    apply OutputStyle.ofValue_unknown
    intro style
    cases style
    · exact noType
    · exact noInterface
  rw [set_style ((settingName_eq_iff (by decide) m.1).2 gives), refused]
  rfl

theorem set_sets {m : Member} (known : ¬ IsUnknownStyle m) (ordinary : m.1 ∉ attributeNames) (s : Settings) :
    ∃ s' : Settings, set s m = .ok s' ∧ s.Sets m s' := by
  by_cases listed : settingName m.1 ∈ settingNames
  -- the style is the only setting that does not take every value
  · by_cases gives : settingName m.1 = "output_style"
    · obtain ⟨key, v⟩ := m
      obtain ⟨style, rfl⟩ : ∃ style : OutputStyle, v = .string style.name := by
        by_contra none
        rw [not_exists] at none
        exact known ⟨(settingName_eq_iff (by decide) key).1 gives, none .type, none .interface⟩
      rw [set_style gives, OutputStyle.ofValue_name]
      refine ⟨_, rfl, ?_⟩
      constructor <;> rw [gives] <;> rfl
    · unfold set
      simp only [settingNames, List.mem_cons, List.not_mem_nil, or_false] at listed
      rcases listed with name | name | name | name | name | name
      case inr.inl => exact absurd name gives
      all_goals
        dsimp only
        rw [name]
        refine ⟨_, rfl, ?_⟩
        constructor <;> rw [name] <;> rfl
  · refine ⟨s, set_other listed ordinary s, ?_⟩
    simp only [settingNames, List.mem_cons, not_or] at listed
    constructor <;> simp [listed]

variable {members : List Member}

theorem holds_concat {s s' : Settings} {m : Member} (before : s.Holds members) (sets : s.Sets m s')
    (object : m.1 = "formatter" → ∃ inner, m.2 = .object inner) : s'.Holds (members ++ [m]) := by
  constructor
  · rw [getD_lastValue?_concat (by decide), sets.rootName, before.rootName]
  · rw [getD_lastValue?_concat (by decide), sets.outputStyle, before.outputStyle]
  · rw [getD_lastValue?_concat (by decide), sets.strictObjects, before.strictObjects]
  · rw [getD_lastValue?_concat (by decide), sets.detectDates, before.detectDates]
  · rw [getD_lastValue?_concat (by decide), sets.snakeToCamel, before.snakeToCamel]
  · rw [getD_lastValue?_concat (by decide), sets.formatter]
    split
    · next gives =>
      -- the formatter has no second spelling
      have sameKey : GivesOption "formatter" m.1 := (settingName_eq_iff (by decide) m.1).1 gives
      obtain ⟨inner, same⟩ := object (sameKey.elim id id)
      rw [same]
      exact ⟨inner, _, rfl, rfl, FormatterOptions.holds_ofMembers inner⟩
    · exact before.formatter

/-- Members are all taken in, or the first unknown style is what is wrong. -/
theorem foldlM_set (objects : ∀ m ∈ members, m.1 = "formatter" → ∃ inner, m.2 = .object inner)
    (ordinary : ∀ m ∈ members, m.1 ∉ attributeNames) :
    (∃ m ∈ members, IsUnknownStyle m ∧ members.foldlM set {} = .error (.unknownStyle m.2)) ∨
      ((∀ m ∈ members, ¬ IsUnknownStyle m) ∧
        ∃ s : Settings, members.foldlM set {} = .ok s ∧ s.Holds members) := by
  induction members using List.reverseRecOn with
  | nil => exact .inr ⟨List.forall_mem_nil _, {}, rfl, Settings.holds_nothing⟩
  | append_singleton members m ih =>
    rw [List.forall_mem_append] at objects ordinary
    rw [List.foldlM_append]
    -- what was refused stays refused, whatever comes after it
    rcases ih objects.1 ordinary.1 with ⟨wrong, member, unknown, refused⟩ | ⟨known, s, loaded, holds⟩
    · refine .inl ⟨wrong, List.mem_append_left _ member, unknown, ?_⟩
      rw [refused]
      rfl
    · rw [loaded]
      by_cases wrong : IsUnknownStyle m
      · refine .inl ⟨m, by simp, wrong, ?_⟩
        change [m].foldlM set (s : SettingsObject) = _
        rw [List.foldlM_cons, set_unknownStyle wrong]
        rfl
      · obtain ⟨s', taken, sets⟩ := set_sets wrong (ordinary.2 m (by simp)) s
        refine .inr ⟨?_, s', ?_, holds_concat holds sets (objects.2 m (by simp))⟩
        · exact List.forall_mem_append.2 ⟨known, List.forall_mem_singleton.2 wrong⟩
        · change [m].foldlM set (s : SettingsObject) = _
          rw [List.foldlM_cons, taken]
          rfl

/-- A formatter member with the options that count; any other member as it is. -/
def trimmed (m : Member) : Member :=
  match m with
  | (key, .object inner) =>
    if key = "formatter" then (key, .object (FormatterOptions.relevant inner)) else (key, .object inner)
  | m => m

def relevant (members : List Member) : List Member :=
  (members.filter fun m => settingName m.1 ∈ settingNames).map trimmed

theorem set_trimmed (s : SettingsObject) (m : Member) : s.set (trimmed m) = s.set m := by
  unfold trimmed
  split
  · next inner =>
    split
    · next formatter =>
      subst formatter
      have sets (v : Value) : s.set ("formatter", v) = .ok { s with formatter := .ofValue v } := rfl
      rw [sets, sets, FormatterSetting.ofValue, FormatterOptions.ofMembers_relevant]
      rfl
    · rfl
  · rfl

theorem foldlM_relevant (ordinary : ∀ m ∈ members, m.1 ∉ attributeNames) (s : SettingsObject) :
    (relevant members).foldlM set s = members.foldlM set s := by
  induction members generalizing s with
  | nil => rfl
  | cons m rest ih =>
    obtain ⟨here, later⟩ := List.forall_mem_cons.1 ordinary
    by_cases gives : settingName m.1 ∈ settingNames
    · have kept : relevant (m :: rest) = trimmed m :: relevant rest := by simp [relevant, gives]
      simp only [kept, List.foldlM_cons, set_trimmed, ih later]
    · have passed : relevant (m :: rest) = relevant rest := by simp [relevant, gives]
      rw [passed, ih later, List.foldlM_cons, set_other gives here]
      rfl

theorem ofValue_toValue {s : Settings} {o : FormatterOptions} (options : s.formatter = .options o) :
    ∃ saved, toValue? s = some saved ∧ ofValue saved = .ok s := by
  obtain ⟨rootName, outputStyle, strictObjects, detectDates, snakeToCamel, formatter⟩ := s
  subst options
  refine ⟨_, rfl, ?_⟩
  cases outputStyle <;> rfl

/-- What reading an object does, and that settings that were read can be written as an object again. -/
structure LoadsAndSaves (members : List Member) : Prop where
  fails : (∃ fault, ofValue (.object members) = .error fault) ↔ ∃ m ∈ members, IsUnknownStyle m
  refuses : ∀ fault, ofValue (.object members) = .error fault →
    ∃ m ∈ members, IsUnknownStyle m ∧ fault = .unknownStyle m.2
  holds : ∀ s, ofValue (.object members) = .ok s → s.Holds members
  others : ofValue (.object (relevant members)) = ofValue (.object members)
  saves : ∀ s, ofValue (.object members) = .ok s → ∃ saved, s.toValue? = some saved ∧ ofValue saved = .ok s

theorem loadsAndSaves (objects : ∀ m ∈ members, m.1 = "formatter" → ∃ inner, m.2 = .object inner)
    (ordinary : ∀ m ∈ members, m.1 ∉ attributeNames) : LoadsAndSaves members := by
  have loading := foldlM_set objects ordinary
  change (∃ m ∈ members, IsUnknownStyle m ∧ ofValue (.object members) = .error (.unknownStyle m.2)) ∨
    ((∀ m ∈ members, ¬ IsUnknownStyle m) ∧
      ∃ s : Settings, ofValue (.object members) = .ok s ∧ s.Holds members) at loading
  refine ⟨?fails, ?refuses, ?holds, foldlM_relevant ordinary {}, ?saves⟩
  case fails =>
    rcases loading with ⟨m, member, unknown, refused⟩ | ⟨known, s, loaded, _⟩
    · exact iff_of_true ⟨_, refused⟩ ⟨m, member, unknown⟩
    · rw [loaded]
      exact iff_of_false nofun fun ⟨m, member, unknown⟩ => known m member unknown
  case refuses =>
    intro fault failed
    rcases loading with ⟨m, member, unknown, refused⟩ | ⟨_, s, loaded, _⟩
    · cases failed.symm.trans refused
      exact ⟨m, member, unknown, rfl⟩
    · cases failed.symm.trans loaded
  case holds =>
    intro s read
    rcases loading with ⟨_, _, _, refused⟩ | ⟨_, s', loaded, holds⟩
    · cases read.symm.trans refused
    · cases read.symm.trans loaded
      exact holds
  case saves =>
    intro s read
    rcases loading with ⟨_, _, _, refused⟩ | ⟨_, s', loaded, holds⟩
    · cases read.symm.trans refused
    · cases read.symm.trans loaded
      obtain ⟨_, _, _, options, _⟩ := holds.formatter
      exact ofValue_toValue options

def mixedMembers : List Member := [
  ("outputStyle", .string "interface"),
  ("printWidth", .number (.integer 5)),
  ("output_style", .string "type"),
  ("formatter", .object
    [("printWidth", .number (.integer 100)), ("rootTypeName", .null), ("print_width", .number (.integer 90))]),
  ("root_type_name", .string "First"),
  ("rootTypeName", .string "Last")]

theorem loadsAndSaves_mixedMembers :
    (∀ m ∈ mixedMembers, m.1 = "formatter" → ∃ inner, m.2 = .object inner) ∧
      (∀ m ∈ mixedMembers, m.1 ∉ attributeNames) ∧ LoadsAndSaves mixedMembers := by
  have objects : ∀ m ∈ mixedMembers, m.1 = "formatter" → ∃ inner, m.2 = .object inner := by
    intro m member key
    simp only [mixedMembers, List.mem_cons, List.not_mem_nil, or_false] at member
    rcases member with rfl | rfl | rfl | rfl | rfl | rfl
    case inr.inr.inr.inl => exact ⟨_, rfl⟩
    all_goals exact absurd key (by decide)
  have ordinary : ∀ m ∈ mixedMembers, m.1 ∉ attributeNames := by decide +kernel
  exact ⟨objects, ordinary, loadsAndSaves objects ordinary⟩

/-- A wrong style is not made good by a later member. -/
example : ofValue (.object [("outputStyle", .null), ("output_style", .string "type")]) =
    .error (.unknownStyle .null) := rfl

end SettingsObject

end JsonShape
