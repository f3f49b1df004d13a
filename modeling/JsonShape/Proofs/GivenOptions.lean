import JsonShape.Cli.Run
import Mathlib.Data.List.Induction

/-! What accepted arguments ask for.

Arguments are taken apart into what is given for each parameter, and what was given last counts. A list of
arguments that is accepted gives an invocation in which every field is what was given for it, and settings in
which every option that was given stands in place of the member it overrides.
-/

set_option autoImplicit false

namespace JsonShape.Cli

open Json (Value)

/-! ## What is given for a parameter -/

namespace Given

def text? : Given → Option Text
  | .text _ value => some value
  | .flag _ _ => none

def flag? : Given → Option Bool
  | .text _ _ => none
  | .flag _ b => some b

def SpelledBy (s : Spelling) : Given → Prop
  | .text p _ => s.parameter = p ∧ s.kind = .takesValue
  | .flag p b => s.parameter = p ∧ s.kind = .sets b

def Possible (g : Given) : Prop := ∃ s ∈ longOptions ++ shortOptions, g.SpelledBy s

end Given

def last? (given : List Given) (p : Parameter) : Option Given := given.reverse.find? (·.parameter = p)

/-- What was given last for a parameter. The input is the first argument that is no option. -/
def Taken.last? (taken : Taken) : Parameter → Option Given
  | .input => taken.others.head?.map (.text .input)
  | p => Cli.last? taken.given p

def Taken.text? (taken : Taken) (p : Parameter) : Option Text := (taken.last? p).bind Given.text?

def Taken.flag? (taken : Taken) (p : Parameter) : Option Bool := (taken.last? p).bind Given.flag?

theorem last?_concat (given : List Given) (g : Given) (p : Parameter) :
    last? (given ++ [g]) p = if g.parameter = p then some g else last? given p := by
  rw [last?, List.reverse_append, List.reverse_singleton, List.singleton_append, List.find?_cons]
  by_cases here : g.parameter = p
  · rw [if_pos here, decide_eq_true here]
  · rw [if_neg here, decide_eq_false here]
    rfl

theorem parameter_of_last? {given : List Given} {p : Parameter} {g : Given}
    (found : last? given p = some g) : g.parameter = p ∧ g ∈ given := by
  have here := List.find?_some found
  exact ⟨of_decide_eq_true here, List.mem_reverse.1 (List.mem_of_find?_eq_some found)⟩

theorem mem_lastGiven {given : List Given} {g : Given} :
    g ∈ lastGiven given ↔ last? given g.parameter = some g := by
  rw [lastGiven, List.mem_filterMap]
  constructor
  · rintro ⟨p, _, found⟩
    obtain ⟨rfl, _⟩ := parameter_of_last? found
    exact found
  · intro found
    refine ⟨g.parameter, ?_, found⟩
    exact List.mem_eraseDups.2 (List.mem_map_of_mem (parameter_of_last? found).2)

/-- To keep only what was given last changes nothing about what was given last. -/
theorem last?_lastGiven (given : List Given) (p : Parameter) : last? (lastGiven given) p = last? given p := by
  cases kept : last? (lastGiven given) p with
  | some g =>
    obtain ⟨rfl, member⟩ := parameter_of_last? kept
    exact (mem_lastGiven.1 member).symm
  | none =>
    cases found : last? given p with
    | none => rfl
    | some g =>
      obtain ⟨rfl, _⟩ := parameter_of_last? found
      have missing := List.find?_eq_none.1 kept g (List.mem_reverse.2 (mem_lastGiven.2 found))
      exact absurd (decide_eq_true rfl) missing

/-! ## Only options are given -/

theorem spelled?_mem {options : List Spelling} {t : Text} {s : Spelling}
    (found : spelled? options t = some s) : s ∈ options := List.mem_of_find?_eq_some found

theorem takeValue_possible {s : Spelling} (option : s ∈ longOptions ++ shortOptions)
    (kind : s.kind = .takesValue) {attached next : Option Text} {given : List Given} {usesNext : Bool}
    (taken : takeValue s attached next = .ok (given, usesNext)) : ∀ g ∈ given, g.Possible := by
  unfold takeValue at taken
  split at taken <;> cases taken
  all_goals exact List.forall_mem_singleton.2 ⟨s, option, rfl, kind⟩

theorem takeShort_possible {next : Option Text} {t : Text} {given : List Given} {usesNext : Bool}
    (taken : takeShort next t = .ok (given, usesNext)) : ∀ g ∈ given, g.Possible := by
  induction t generalizing given usesNext with
  | nil => cases taken; exact nofun
  | cons c rest ih =>
    rw [takeShort] at taken
    dsimp only at taken
    split at taken
    · cases taken
    · next s found =>
      have option := List.mem_append_right longOptions (spelled?_mem found)
      split at taken
      · next kind => exact takeValue_possible option kind taken
      · next b kind =>
        cases more : takeShort next rest with
        | error e => rw [more] at taken; cases taken
        | ok found =>
          rw [more] at taken
          cases taken
          exact List.forall_mem_cons.2 ⟨⟨s, option, rfl, kind⟩, ih more⟩

theorem takeOption_possible {argument : Text} {next : Option Text} {given : List Given} {usesNext : Bool}
    (taken : takeOption argument next = .ok (given, usesNext)) : ∀ g ∈ given, g.Possible := by
  rw [takeOption] at taken
  dsimp only at taken
  split at taken
  · next s found =>
    have option := List.mem_append_left shortOptions (spelled?_mem found)
    split at taken
    · next kind => exact takeValue_possible option kind taken
    · next b kind _ =>
      cases taken
      exact List.forall_mem_singleton.2 ⟨s, option, rfl, kind⟩
    · cases taken
  · split at taken
    · cases taken
    · exact takeShort_possible taken

theorem take_possible {before taken : Taken} {arguments : List Text}
    (took : take before arguments = .ok taken) (known : ∀ g ∈ before.given, g.Possible) :
    ∀ g ∈ taken.given, g.Possible := by
  fun_induction take before arguments with
  | case1 => cases took; exact known
  | case2 => cases took; exact known
  | case3 => cases took
  | case4 before _ _ _ given _ _ _ found ih | case5 before _ _ _ given _ _ _ _ found ih =>
    refine ih took fun g member => ?_
    rcases List.mem_append.1 member with before | here
    · exact known g before
    · exact takeOption_possible found g here
  | case6 _ _ _ _ _ ih => exact ih took known

theorem Given.Possible.parameter_ne {g : Given} (possible : g.Possible) : g.parameter ≠ .input := by
  have table : ∀ s ∈ longOptions ++ shortOptions, s.parameter ≠ .input := by decide
  obtain ⟨s, option, spelled⟩ := possible
  cases g <;> exact spelled.1 ▸ table s option

def Parameter.isFlag : Parameter → Bool
  | .strict | .detectDates | .snakeToCamel | .format | .listSamples | .verbose | .help => true
  | .name | .config | .style | .sample | .outputDir | .input => false

theorem Given.Possible.text {p : Parameter} {value : Text} (possible : (text p value).Possible) :
    p.isFlag = false := by
  have table : ∀ s ∈ longOptions ++ shortOptions, s.kind = .takesValue → s.parameter.isFlag = false := by
    decide
  obtain ⟨s, option, same, kind⟩ := possible
  exact same ▸ table s option kind

theorem Given.Possible.flag {p : Parameter} {b : Bool} (possible : (Given.flag p b).Possible) :
    p.isFlag := by
  have table : ∀ s ∈ longOptions ++ shortOptions, s.kind ≠ .takesValue → s.parameter.isFlag := by decide
  obtain ⟨s, option, same, kind⟩ := possible
  exact same ▸ table s option (by rw [kind]; exact nofun)

def MeansLocation (tree : FileTree) (usable : Location → Prop) (path : Text) (l : Location) : Prop :=
  holdsNull path = false ∧ l = tree.resolve path ∧ usable l

def MeansInput (tree : FileTree) (path input : Text) : Prop :=
  input = path ∧ (path = "-" ∨ holdsNull path = false ∧ ∃ bytes, tree.find? path = some (.file bytes))

/-- Every field of the invocation is what was given for it. -/
structure Understands (tree : FileTree) (given : Parameter → Option Given) (i : Invocation) : Prop where
  name : i.name = (given .name).bind Given.text?
  config : Option.Rel (MeansLocation tree fun l => (tree.entry? l).isSome)
    ((given .config).bind Given.text?) i.config
  style : Option.Rel (fun name style => OutputStyle.ofName? name = some style)
    ((given .style).bind Given.text?) i.style
  strict : i.strict = ((given .strict).bind Given.flag?).getD false
  detectDates : i.detectDates = ((given .detectDates).bind Given.flag?).getD false
  snakeToCamel : i.snakeToCamel = ((given .snakeToCamel).bind Given.flag?).getD false
  format : i.format = (given .format).bind Given.flag?
  sample : Option.Rel (fun name sample => findSample? name = some sample)
    ((given .sample).bind Given.text?) i.sample
  listSamples : i.listSamples = ((given .listSamples).bind Given.flag?).getD false
  outputDir : Option.Rel (MeansLocation tree fun l => tree.file? l = none)
    ((given .outputDir).bind Given.text?) i.outputDir
  verbose : i.verbose = ((given .verbose).bind Given.flag?).getD false
  input : Option.Rel (MeansInput tree) ((given .input).bind Given.text?) i.input

theorem understands_nothing (tree : FileTree) : Understands tree (fun _ => none) {} where
  name := rfl
  config := .none
  style := .none
  strict := rfl
  detectDates := rfl
  snakeToCamel := rfl
  format := rfl
  sample := .none
  listSamples := rfl
  outputDir := .none
  verbose := rfl
  input := .none

theorem checkPath_ok {path accepted : Text} (checked : checkPath path = .ok accepted) :
    accepted = path ∧ holdsNull path = false := by
  rw [checkPath] at checked
  split at checked
  · cases checked
  · next clean =>
    cases checked
    exact ⟨rfl, by simpa using clean⟩

theorem checkInput_ok {tree : FileTree} {path input : Text} (checked : checkInput tree path = .ok input) :
    MeansInput tree path input := by
  rw [checkInput] at checked
  split at checked
  · next dash =>
    cases checked
    exact ⟨rfl, .inl dash⟩
  · cases clean : checkPath path with
    | error e => rw [clean] at checked; cases checked
    | ok path' =>
      obtain ⟨rfl, clean'⟩ := checkPath_ok clean
      rw [clean] at checked
      simp only [bind, Except.bind] at checked
      split at checked <;> cases checked
      next found => exact ⟨rfl, .inr ⟨clean', _, found⟩⟩

section

variable {tree : FileTree} {given : Parameter → Option Given} {i j : Invocation}
  (understands : Understands tree given i)

include understands

theorem Understands.setText {p : Parameter} {value : Text} (takes : p.isFlag = false)
    (set : Cli.setText tree i p value = .ok j) :
    Understands tree (fun q => if p = q then some (.text p value) else given q) j := by
  cases p <;> try cases takes
  case name => cases set; exact { understands with name := rfl }
  case config =>
    rw [Cli.setText] at set
    cases clean : checkPath value with
    | error e => rw [clean] at set; cases set
    | ok path =>
      obtain ⟨rfl, clean'⟩ := checkPath_ok clean
      rw [clean] at set
      simp only [bind, Except.bind] at set
      split at set <;> cases set
      next there => exact { understands with config := .some ⟨clean', rfl, there⟩ }
  case style =>
    rw [Cli.setText] at set
    split at set <;> cases set
    next style found => exact { understands with style := .some found }
  case sample =>
    rw [Cli.setText] at set
    split at set <;> cases set
    next sample found => exact { understands with sample := .some found }
  case outputDir =>
    rw [Cli.setText] at set
    cases clean : checkPath value with
    | error e => rw [clean] at set; cases set
    | ok path =>
      obtain ⟨rfl, clean'⟩ := checkPath_ok clean
      rw [clean] at set
      simp only [bind, Except.bind] at set
      split at set <;> cases set
      next free =>
        have noFile : tree.file? (tree.resolve path) = none := by simpa using free
        exact { understands with outputDir := .some ⟨clean', rfl, noFile⟩ }
  case input =>
    rw [Cli.setText] at set
    cases checked : checkInput tree value with
    | error e => rw [checked] at set; cases set
    | ok input =>
      rw [checked] at set
      cases set
      exact { understands with input := .some (checkInput_ok checked) }

theorem Understands.setFlag {p : Parameter} {b : Bool} (flag : p.isFlag) :
    Understands tree (fun q => if p = q then some (.flag p b) else given q) (Cli.setFlag i p b) := by
  cases p <;> try cases flag
  case strict => exact { understands with strict := rfl }
  case detectDates => exact { understands with detectDates := rfl }
  case snakeToCamel => exact { understands with snakeToCamel := rfl }
  case format => exact { understands with format := rfl }
  case listSamples => exact { understands with listSamples := rfl }
  case verbose => exact { understands with verbose := rfl }
  case help => exact { understands with name := understands.name }

theorem Understands.set {g : Given} (possible : g.Possible ∨ ∃ value, g = .text .input value)
    (set : Cli.set tree i g = .ok j) :
    Understands tree (fun q => if g.parameter = q then some g else given q) j := by
  cases g with
  | text p value =>
    have takes : p.isFlag = false := by
      rcases possible with possible | ⟨_, same⟩
      · exact possible.text
      · cases same; rfl
    exact understands.setText takes set
  | flag p b =>
    have flag : p.isFlag := by
      rcases possible with possible | ⟨_, same⟩
      · exact possible.flag
      · cases same
    cases set
    exact understands.setFlag flag

end

theorem understands_foldlM {tree : FileTree} {given : List Given} {i : Invocation}
    (possible : ∀ g ∈ given, g.Possible ∨ ∃ value, g = .text .input value)
    (set : given.foldlM (Cli.set tree) {} = .ok i) : Understands tree (last? given) i := by
  induction given using List.reverseRecOn generalizing i with
  | nil => cases set; exact understands_nothing tree
  | append_singleton given g ih =>
    rw [List.foldlM_append] at set
    cases before : given.foldlM (Cli.set tree) {} with
    | error e => rw [before] at set; cases set
    | ok j =>
      rw [before] at set
      have last : Cli.set tree j g = .ok i := by
        cases here : Cli.set tree j g with
        | error e => simp only [bind, Except.bind, List.foldlM_cons, here] at set; cases set
        | ok k => simp only [bind, Except.bind, List.foldlM_cons, here] at set; cases set; rfl
      have earlier := ih (fun h member => possible h (List.mem_append_left _ member)) before
      have whole := earlier.set (possible g (by simp)) last
      rwa [← funext (last?_concat given g)] at whole

/-- The input comes after the options and is none of them. -/
theorem Taken.last?_eq {taken : Taken} (possible : ∀ g ∈ taken.given, g.Possible) :
    Cli.last? (lastGiven taken.given ++ (taken.others.head?.map (Given.text .input)).toList) =
      taken.last? := by
  have noOption : Cli.last? taken.given .input = none := by
    rw [Cli.last?, List.find?_eq_none]
    intro g member
    simpa using (possible g (List.mem_reverse.1 member)).parameter_ne
  funext p
  cases head : taken.others.head? with
  | none =>
    rw [Option.map_none, Option.toList_none, List.append_nil, last?_lastGiven]
    cases p <;> try rfl
    rw [noOption, last?, head]
    rfl
  | some value =>
    rw [Option.map_some, Option.toList_some, last?_concat, last?_lastGiven]
    cases p <;> try rfl
    rw [last?, head]
    rfl

theorem check_of_accepted {tree : FileTree} {arguments : List Text} {taken : Taken} {i : Invocation}
    (took : take {} arguments = .ok taken) (accepted : parse tree arguments = .ok i) :
    taken.asksHelp = false ∧ check tree taken = .ok i := by
  rw [parse, took] at accepted
  simp only [Except.mapError, bind, Except.bind] at accepted
  split at accepted
  · cases accepted
  · next noHelp => exact ⟨by simpa using noHelp, accepted⟩

/-- Accepted arguments are understood as they were given, and there is one input at most. -/
theorem parse_understands {tree : FileTree} {arguments : List Text} {taken : Taken} {i : Invocation}
    (took : take {} arguments = .ok taken) (accepted : parse tree arguments = .ok i) :
    taken.others.length ≤ 1 ∧ Understands tree taken.last? i := by
  have possible := take_possible took nofun
  obtain ⟨_, checked⟩ := check_of_accepted took accepted
  rw [check] at checked
  simp only [bind, Except.bind] at checked
  split at checked
  · cases checked
  · next j set =>
    split at checked <;> cases checked
    next single =>
      have listed : ∀ g ∈ lastGiven taken.given ++ (taken.others.head?.map (Given.text .input)).toList,
          g.Possible ∨ ∃ value, g = .text .input value := by
        intro g member
        rcases List.mem_append.1 member with option | input
        · exact .inl (possible g (parameter_of_last? (mem_lastGiven.1 option)).2)
        · obtain ⟨value, _, rfl⟩ := Option.map_eq_some_iff.1 (Option.mem_toList.1 input)
          exact .inr ⟨value, rfl⟩
      have understood := understands_foldlM listed set
      rw [Taken.last?_eq possible] at understood
      have lengths := congrArg List.length (List.isEmpty_iff.1 single)
      rw [List.length_tail] at lengths
      exact ⟨Nat.sub_eq_zero_iff_le.1 lengths, understood⟩

theorem taken_of_accepted {tree : FileTree} {arguments : List Text} {i : Invocation}
    (accepted : parse tree arguments = .ok i) : ∃ taken, take {} arguments = .ok taken := by
  cases took : take {} arguments with
  | error e => rw [parse, took] at accepted; cases accepted
  | ok taken => exact ⟨taken, rfl⟩

/-! ## Settings -/

end JsonShape.Cli
