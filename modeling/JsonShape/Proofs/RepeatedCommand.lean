import JsonShape.Proofs.CommandLine

/-! The command line of a header, read again.

A header tells how its file was made: whoever takes the line apart at its blanks can run the command again.
Two choices do not come back, since nothing is written for them: an empty name for the root and the choice not
to format. Everything else that decides the documents does, wherever the paths of the line are accepted.
-/

set_option autoImplicit false

namespace JsonShape.Cli

/-! ## The choices of an invocation -/

structure Choices where
  name : Option Text
  style : Option OutputStyle
  strict : Bool
  detectDates : Bool
  snakeToCamel : Bool
  format : Option Bool
  sample : Option NamedSample

def Invocation.choices (i : Invocation) : Choices where
  name := i.name
  style := i.style
  strict := i.strict
  detectDates := i.detectDates
  snakeToCamel := i.snakeToCamel
  format := i.format
  sample := i.sample

/-- The choices that a header tells of. -/
def Choices.retold (c : Choices) : Choices :=
  { c with name := c.name.filter (!·.isEmpty), format := c.format.filter id }

theorem Choices.retold_eq_iff (c : Choices) :
    c.retold = c ↔ c.name ≠ some [] ∧ c.format ≠ some false := by
  obtain ⟨name, _, _, _, _, format, _⟩ := c
  have names : name.filter (!·.isEmpty) = name ↔ name ≠ some [] := by
    rcases name with _ | _ | _ <;> simp
  have formats : format.filter id = format ↔ format ≠ some false := by
    rcases format with _ | _ | _ <;> simp
  simp [retold, names, formats]

theorem override_congr {i j : Invocation} (same : i.choices = j.choices) : override i = override j := by
  funext s
  simp only [Invocation.choices, Choices.mk.injEq] at same
  obtain ⟨name, style, strict, dates, camel, format, _⟩ := same
  unfold override
  rw [name, style, strict, dates, camel, format]

/-! ## What a header says -/

def Invocation.text? (i : Invocation) : Parameter → Option Text
  | .name => i.name
  | .config => i.config.map Location.path
  | .style => i.style.map OutputStyle.name
  | .sample => i.sample.map (·.name)
  | .outputDir => i.outputDir.map Location.path
  | .input => i.input
  | .strict | .detectDates | .snakeToCamel | .format | .listSamples | .verbose | .help => none

/-- Whether a flag is set to yes. -/
def Invocation.affirms (i : Invocation) : Parameter → Bool
  | .strict => i.strict
  | .detectDates => i.detectDates
  | .snakeToCamel => i.snakeToCamel
  | .format => i.format.getD false
  | .listSamples => i.listSamples
  | .verbose => i.verbose
  | .name | .config | .style | .sample | .outputDir | .help | .input => false

def shownText (tree : FileTree) (i : Invocation) (p : Parameter) : Option Text :=
  ((i.text? p).filter (!·.isEmpty)).map tree.shown

def retell (tree : FileTree) (i : Invocation) (p : Parameter) : Option Given :=
  if p.isFlag then if i.affirms p then some (.flag p true) else none
  else (shownText tree i p).map (.text p)

def declared : List Parameter :=
  [.name, .config, .style, .strict, .detectDates, .snakeToCamel, .format, .sample, .listSamples, .outputDir,
    .verbose, .help]

theorem mem_declared {p : Parameter} (option : p ≠ .input) : p ∈ declared := by
  cases p <;> first | decide | exact absurd rfl option

def Parameter.spelling? (p : Parameter) : Option Text :=
  (longOptions.find? (·.parameter = p)).map (·.text)

def Given.words (g : Given) : List Text := g.parameter.spelling?.toList ++ g.text?.toList

section

variable (tree : FileTree) (i : Invocation)

theorem shownOption_eq (p : Parameter) (takes : p.isFlag = false) {spelling : Text}
    (spelled : p.spelling? = some spelling) :
    shownOption tree spelling (i.text? p) = (retell tree i p).toList.flatMap Given.words := by
  unfold retell shownText
  rw [takes]
  cases i.text? p with
  | none => rfl
  | some value =>
    cases value <;> simp [shownOption, Option.filter, Given.words, Given.parameter, Given.text?, spelled]

theorem shownFlag_eq (p : Parameter) (flag : p.isFlag) {spelling : Text}
    (spelled : p.spelling? = some spelling) :
    shownFlag spelling (i.affirms p) = (retell tree i p).toList.flatMap Given.words := by
  unfold retell
  rw [flag]
  cases i.affirms p <;> simp [shownFlag, Given.words, Given.parameter, Given.text?, spelled]

theorem shownInput_eq : shownInput tree i.input = (shownText tree i .input).toList := by
  unfold shownText Invocation.text?
  rcases i.input with _ | _ | _ <;> simp [shownInput, Option.filter]

theorem commandParts_eq :
    commandParts tree i = (shownText tree i .input).toList ++
      (declared.filterMap (retell tree i)).flatMap Given.words := by
  -- one equation for each option, in the order of the header
  have named := shownOption_eq tree i .name rfl rfl
  have config := shownOption_eq tree i .config rfl rfl
  have style := shownOption_eq tree i .style rfl rfl
  have strict := shownFlag_eq tree i .strict rfl rfl
  have dates := shownFlag_eq tree i .detectDates rfl rfl
  have camel := shownFlag_eq tree i .snakeToCamel rfl rfl
  have format := shownFlag_eq tree i .format rfl rfl
  have sample := shownOption_eq tree i .sample rfl rfl
  have listed := shownFlag_eq tree i .listSamples rfl rfl
  have output := shownOption_eq tree i .outputDir rfl rfl
  have verbose := shownFlag_eq tree i .verbose rfl rfl
  have help : retell tree i .help = none := rfl
  simp only [Invocation.text?, Invocation.affirms] at *
  rw [List.filterMap_eq_flatMap_toList, List.flatMap_assoc]
  unfold commandParts declared
  rw [shownInput_eq, named, config, style, strict, dates, camel, format, sample, listed, output, verbose]
  simp only [List.flatMap_cons, List.flatMap_nil, help, Option.toList_none, List.append_nil,
    List.append_assoc]

end

/-! ## Taking the line apart -/

theorem longOptions_spelled : ∀ s ∈ longOptions, s.text ≠ "--" ∧ isOption s.text ∧
    splitAttached s.text = (s.text, none) ∧ spelled? longOptions s.text = some s := by
  decide +kernel

theorem takeOption_long {s : Spelling} (long : s ∈ longOptions) (next : Option Text) :
    takeOption s.text next =
      match s.kind with
      | .takesValue => takeValue s none next
      | .sets b => .ok ([.flag s.parameter b], false) := by
  obtain ⟨_, _, unattached, found⟩ := longOptions_spelled s long
  unfold takeOption
  rw [unattached]
  dsimp only
  rw [found]
  dsimp only
  cases s.kind <;> rfl

/-- Every option has a spelling in the header, and a flag one that sets it to yes. -/
theorem spelling?_long {p : Parameter} (option : p ≠ .input) : ∃ s ∈ longOptions,
    p.spelling? = some s.text ∧ s.parameter = p ∧ s.kind = if p.isFlag then .sets true else .takesValue := by
  unfold Parameter.spelling?
  cases found : longOptions.find? (·.parameter = p) with
  | none => cases p <;> first | exact absurd rfl option | cases found
  | some s =>
    have same := List.find?_some found
    refine ⟨s, List.mem_of_find?_eq_some found, rfl, of_decide_eq_true same, ?_⟩
    cases p <;> cases found <;> rfl

theorem words_of_spelled {g : Given} {s : Spelling} (spelled : g.parameter.spelling? = some s.text) :
    g.words = s.text :: g.text?.toList := by
  rw [Given.words, spelled]
  rfl

inductive Given.Retold : Given → Prop where
  | text {p : Parameter} (takes : p.isFlag = false) (option : p ≠ .input) (value : Text) :
    Retold (.text p value)
  | flag {p : Parameter} (flag : p.isFlag) : Retold (.flag p true)

theorem take_words {g : Given} (retold : g.Retold) (taken : Taken) (rest : List Text) :
    take taken (g.words ++ rest) = take { taken with given := taken.given ++ [g] } rest := by
  cases retold with
  | @text p takes option value =>
    obtain ⟨s, long, spelled, rfl, kind⟩ := spelling?_long option
    obtain ⟨noDashes, isOption, _, _⟩ := longOptions_spelled s long
    rw [takes] at kind
    -- the argument after the option is its value, whatever it looks like
    rw [words_of_spelled (g := .text s.parameter value) spelled]
    simp [take, Given.text?, noDashes, isOption, takeOption_long long, kind, takeValue]
  | @flag p flag =>
    have option : p ≠ .input := by
      rintro rfl
      cases flag
    obtain ⟨s, long, spelled, rfl, kind⟩ := spelling?_long option
    obtain ⟨noDashes, isOption, _, _⟩ := longOptions_spelled s long
    rw [flag] at kind
    rw [words_of_spelled (g := .flag s.parameter true) spelled]
    simp [take, Given.text?, noDashes, isOption, takeOption_long long, kind]

theorem take_flatMap_words {given : List Given} (retold : ∀ g ∈ given, g.Retold) (taken : Taken) :
    take taken (given.flatMap Given.words) = .ok { taken with given := taken.given ++ given } := by
  induction given generalizing taken with
  | nil => simp [take]
  | cons g given ih =>
    obtain ⟨here, later⟩ := List.forall_mem_cons.1 retold
    rw [List.flatMap_cons, take_words here, ih later]
    simp only [List.append_assoc, List.singleton_append]

theorem Taken.last?_of_option (taken : Taken) {p : Parameter} (option : p ≠ .input) :
    taken.last? p = Cli.last? taken.given p := by
  cases p <;> first | rfl | exact absurd rfl option

theorem take_plain {argument : Text} (plain : isOption argument = false) (taken : Taken) (rest : List Text) :
    take taken (argument :: rest) = take { taken with others := taken.others ++ [argument] } rest := by
  have noDashes : argument ≠ "--" := by
    rintro rfl
    cases plain
  rw [take, if_neg noDashes, plain, if_neg Bool.false_ne_true]

section

variable (tree : FileTree) (i : Invocation)

theorem retell_parameter {p : Parameter} {g : Given} (said : retell tree i p = some g) : g.parameter = p := by
  unfold retell at said
  split at said
  · split at said <;> cases said
    rfl
  · obtain ⟨_, _, rfl⟩ := Option.map_eq_some_iff.1 said
    rfl

theorem retell_retold {p : Parameter} {g : Given} (option : p ≠ .input) (said : retell tree i p = some g) :
    g.Retold := by
  unfold retell at said
  split at said
  · next flag =>
    split at said <;> cases said
    exact .flag flag
  · next takes =>
    obtain ⟨value, _, rfl⟩ := Option.map_eq_some_iff.1 said
    exact .text (Bool.eq_false_iff.2 takes) option value

def retold : Taken where
  given := declared.filterMap (retell tree i)
  others := (shownText tree i .input).toList

theorem take_commandParts (plain : ∀ path, shownText tree i .input = some path → isOption path = false) :
    take {} (commandParts tree i) = .ok (retold tree i) := by
  have options : ∀ g ∈ declared.filterMap (retell tree i), g.Retold := by
    intro g member
    obtain ⟨p, declared, said⟩ := List.mem_filterMap.1 member
    refine retell_retold tree i ?_ said
    rintro rfl
    exact absurd declared (by decide)
  rw [commandParts_eq, retold]
  cases input : shownText tree i .input with
  | none => exact take_flatMap_words options {}
  | some path =>
    rw [Option.toList_some, List.singleton_append, take_plain (plain path input), take_flatMap_words options]
    rfl

theorem last?_filterMap {f : Parameter → Option Given} (own : ∀ p g, f p = some g → g.parameter = p)
    (listed : List Parameter) (p : Parameter) :
    last? (listed.filterMap f) p = if p ∈ listed then f p else none := by
  induction listed using List.reverseRecOn with
  | nil => rfl
  | append_singleton listed q ih =>
    rw [List.filterMap_append, List.filterMap_cons, List.filterMap_nil]
    cases said : f q with
    | none =>
      rw [List.append_nil, ih]
      by_cases here : p = q
      · subst here
        simp [said]
      · simp [here]
    | some g =>
      rw [last?_concat, ih, own q g said]
      by_cases here : q = p
      · subst here
        simp [said]
      · simp [here, Ne.symm here]

/-- What is given last for a parameter is what the header says of it. -/
theorem retold_last? (p : Parameter) : (retold tree i).last? p = retell tree i p := by
  by_cases input : p = .input
  · -- no option gives the input: it is the one argument besides
    subst input
    change (shownText tree i .input).toList.head?.map (Given.text .input) = _
    rw [Option.head?_toList]
    rfl
  · rw [Taken.last?_of_option _ input, retold,
      last?_filterMap (fun p g => retell_parameter tree i), if_pos (mem_declared input)]

end

/-! ## Accepted values -/

/-- Something given that is accepted whatever else is. -/
def Settable (tree : FileTree) (g : Given) : Prop := ∀ i, ∃ j, set tree i g = .ok j

theorem foldlM_set {tree : FileTree} {given : List Given} (settable : ∀ g ∈ given, Settable tree g)
    (i : Invocation) : ∃ j, given.foldlM (set tree) i = .ok j := by
  induction given generalizing i with
  | nil => exact ⟨i, rfl⟩
  | cons g given ih =>
    obtain ⟨here, later⟩ := List.forall_mem_cons.1 settable
    obtain ⟨j, set⟩ := here i
    rw [List.foldlM_cons, set]
    exact ih later j

theorem asksHelp_of_last? {taken : Taken} (noHelp : taken.last? .help = none) : taken.asksHelp = false := by
  rw [taken.last?_of_option (by decide), last?, List.find?_eq_none] at noHelp
  simpa [Taken.asksHelp] using noHelp

theorem parse_settable {tree : FileTree} {arguments : List Text} {taken : Taken}
    (took : take {} arguments = .ok taken) (single : taken.others.length ≤ 1)
    (noHelp : taken.last? .help = none)
    (settable : ∀ p g, taken.last? p = some g → Settable tree g) : ∃ i, parse tree arguments = .ok i := by
  have possible := take_possible took nofun
  have each : ∀ g ∈ lastGiven taken.given ++ (taken.others.head?.map (Given.text .input)).toList,
      Settable tree g := by
    intro g member
    rcases List.mem_append.1 member with option | input
    · have last := mem_lastGiven.1 option
      have known := (possible g (parameter_of_last? last).2).parameter_ne
      exact settable _ g ((taken.last?_of_option known).trans last)
    · exact settable .input g (Option.mem_toList.1 input)
  obtain ⟨i, set⟩ := foldlM_set each {}
  have rest : taken.others.tail.isEmpty := by
    rw [List.isEmpty_iff, ← List.length_eq_zero_iff, List.length_tail]
    omega
  refine ⟨i, ?_⟩
  rw [parse, took]
  simp [Except.mapError, bind, Except.bind, asksHelp_of_last? noHelp, check, set, rest]

/-- The paths among the texts of parameters are accepted. -/
structure Admits (tree : FileTree) (text? : Parameter → Option Text) : Prop where
  config : ∀ path, text? .config = some path →
    ∃ l, MeansLocation tree (fun l => (tree.entry? l).isSome) path l
  outputDir : ∀ path, text? .outputDir = some path →
    ∃ l, MeansLocation tree (fun l => tree.file? l = none) path l
  input : ∀ path, text? .input = some path → ∃ input, MeansInput tree path input

theorem checkPath_clean {path : Text} (clean : holdsNull path = false) : checkPath path = .ok path := by
  rw [checkPath, clean, if_neg Bool.false_ne_true]

theorem checkInput_means {tree : FileTree} {path input : Text} (means : MeansInput tree path input) :
    checkInput tree path = .ok input := by
  obtain ⟨rfl, readable⟩ := means
  unfold checkInput
  split
  · rfl
  · next other =>
    obtain dash | ⟨clean, bytes, found⟩ := readable
    · exact absurd dash other
    · simp only [checkPath_clean clean, bind, Except.bind, found]

/-! ## What is shown -/

theorem shown_single {tree : FileTree} {name : Text} (single : FileTree.significant name = [name]) :
    tree.shown name = name := by
  unfold FileTree.shown
  rw [single]
  split <;> rfl

theorem styles_single (style : OutputStyle) :
    style.name ≠ [] ∧ FileTree.significant style.name = [style.name] := by
  cases style <;> decide

theorem samples_single : ∀ s ∈ samples, s.name ≠ [] ∧ FileTree.significant s.name = [s.name] := by
  decide +kernel

theorem ofName?_name (style : OutputStyle) : OutputStyle.ofName? style.name = some style := by
  cases style <;> rfl

theorem findSample?_name {name : Text} {s : NamedSample} (found : findSample? name = some s) :
    s ∈ samples ∧ findSample? s.name = some s := by
  have same := List.find?_some found
  obtain rfl := of_decide_eq_true same
  exact ⟨List.mem_of_find?_eq_some found, found⟩

/-- The header shows what it takes to be read again: no text with a blank, the name for the root as it is and
no input that looks like an option. -/
structure Legible (tree : FileTree) (i : Invocation) : Prop where
  unbroken : ∀ p text, shownText tree i p = some text → CodePoint.ofChar ' ' ∉ text
  name : ∀ name, i.name = some name → tree.shown name = name
  input : ∀ path, shownText tree i .input = some path → isOption path = false

section

variable {tree there : FileTree} {i j : Invocation}

theorem shownText_single {p : Parameter} (single : ∀ text, i.text? p = some text →
    text ≠ [] ∧ tree.shown text = text) : shownText tree i p = i.text? p := by
  unfold shownText
  cases given : i.text? p with
  | none => rfl
  | some text =>
    obtain ⟨some, same⟩ := single text given
    simp [Option.filter, some, same]

theorem shownText_style : shownText tree i .style = i.style.map OutputStyle.name := by
  refine shownText_single fun text given => ?_
  obtain ⟨style, _, rfl⟩ := Option.map_eq_some_iff.1 given
  obtain ⟨some, single⟩ := styles_single style
  exact ⟨some, shown_single single⟩

theorem shownText_sample (known : ∀ s, i.sample = some s → s ∈ samples) :
    shownText tree i .sample = i.sample.map (·.name) := by
  refine shownText_single fun text given => ?_
  obtain ⟨s, asked, rfl⟩ := Option.map_eq_some_iff.1 given
  obtain ⟨some, single⟩ := samples_single s (known s asked)
  exact ⟨some, shown_single single⟩

theorem Legible.shownText_name (legible : Legible tree i) :
    shownText tree i .name = i.name.filter (!·.isEmpty) := by
  unfold shownText Invocation.text?
  cases name : i.name with
  | none => rfl
  | some value => cases value <;> simp [Option.filter, legible.name _ name]

theorem shownText_of_retell {p : Parameter} {g : Given} {text : Text} (said : retell tree i p = some g)
    (holds : g.text? = some text) : shownText tree i p = some text := by
  unfold retell at said
  split at said
  · split at said <;> cases said
    cases holds
  · obtain ⟨value, shown, rfl⟩ := Option.map_eq_some_iff.1 said
    cases holds
    exact shown

theorem retell_text? {p : Parameter} (takes : p.isFlag = false) :
    (retell tree i p).bind Given.text? = shownText tree i p := by
  unfold retell
  rw [takes, if_neg Bool.false_ne_true]
  cases shownText tree i p <;> rfl

theorem retell_flag? {p : Parameter} (flag : p.isFlag) :
    (retell tree i p).bind Given.flag? = if i.affirms p then some true else none := by
  unfold retell
  rw [if_pos flag]
  cases i.affirms p <;> rfl

theorem getD_retell_flag? {p : Parameter} (flag : p.isFlag) :
    ((retell tree i p).bind Given.flag?).getD false = i.affirms p := by
  rw [retell_flag? flag]
  cases i.affirms p <;> rfl

theorem eq_of_rel_map {α β : Type} {R : β → α → Prop} {f : α → β} {o again : Option α}
    (rel : Option.Rel R (o.map f) again) (only : ∀ a b, o = some a → R (f a) b → b = a) : again = o := by
  cases o with
  | none => cases rel; rfl
  | some a =>
    cases rel with
    | some related => exact congrArg some (only a _ rfl related)

theorem exists_of_rel {α β : Type} {R : β → α → Prop} {b : β} {again : Option α}
    (rel : Option.Rel R (some b) again) : ∃ a, R b a := by
  cases rel with
  | some related => exact ⟨_, related⟩

/-- Whoever is told what a header says makes the choices that are retold. -/
theorem Understands.choices (understands : Understands there (retell tree i) j) (legible : Legible tree i)
    (known : ∀ s, i.sample = some s → findSample? s.name = some s) :
    j.choices = i.choices.retold := by
  have samples : ∀ s, i.sample = some s → s ∈ samples := fun s asked => (findSample?_name (known s asked)).1
  have style : j.style = i.style := by
    have style := understands.style
    rw [retell_text? rfl, shownText_style] at style
    exact eq_of_rel_map style fun style _ _ found => Option.some.inj (found.symm.trans (ofName?_name style))
  have sample : j.sample = i.sample := by
    have sample := understands.sample
    rw [retell_text? rfl, shownText_sample samples] at sample
    exact eq_of_rel_map sample fun s _ asked found => Option.some.inj (found.symm.trans (known s asked))
  have format : j.format = i.format.filter id := by
    rw [understands.format, retell_flag? rfl]
    unfold Invocation.affirms
    rcases i.format with _ | _ | _ <;> rfl
  unfold Invocation.choices Choices.retold
  rw [Choices.mk.injEq]
  refine ⟨?_, style, ?_, ?_, ?_, format, sample⟩
  · rw [understands.name, retell_text? rfl, legible.shownText_name]
  · rw [understands.strict, getD_retell_flag? rfl, Invocation.affirms]
  · rw [understands.detectDates, getD_retell_flag? rfl, Invocation.affirms]
  · rw [understands.snakeToCamel, getD_retell_flag? rfl, Invocation.affirms]

theorem admits_of_understands (understands : Understands there (retell tree i) j) :
    Admits there (shownText tree i) := by
  obtain ⟨_, config, _, _, _, _, _, _, _, outputDir, _, input⟩ := understands
  rw [retell_text? rfl] at config outputDir input
  refine ⟨fun path shown => ?_, fun path shown => ?_, fun path shown => ?_⟩
  · exact exists_of_rel (shown ▸ config)
  · exact exists_of_rel (shown ▸ outputDir)
  · exact exists_of_rel (shown ▸ input)

theorem settable_retell (admits : Admits there (shownText tree i))
    (known : ∀ s, i.sample = some s → findSample? s.name = some s) {p : Parameter} {g : Given}
    (said : retell tree i p = some g) : Settable there g := by
  intro k
  unfold retell at said
  split at said
  · split at said <;> cases said
    exact ⟨_, rfl⟩
  · next takes =>
    obtain ⟨value, shown, rfl⟩ := Option.map_eq_some_iff.1 said
    change ∃ j, setText there k p value = .ok j
    -- names are never refused and choices are shown as they are, so that only paths can be wrong
    cases p <;> try exact absurd rfl takes
    case name => exact ⟨_, rfl⟩
    case config =>
      obtain ⟨_, clean, rfl, found⟩ := admits.config value shown
      simp [setText, checkPath_clean clean, bind, Except.bind, found]
    case style =>
      rw [shownText_style] at shown
      obtain ⟨style, _, rfl⟩ := Option.map_eq_some_iff.1 shown
      simp [setText, ofName?_name]
    case sample =>
      rw [shownText_sample fun s asked => (findSample?_name (known s asked)).1] at shown
      obtain ⟨s, asked, rfl⟩ := Option.map_eq_some_iff.1 shown
      simp [setText, known s asked]
    case outputDir =>
      obtain ⟨_, clean, rfl, free⟩ := admits.outputDir value shown
      simp [setText, checkPath_clean clean, bind, Except.bind, free]
    case input =>
      obtain ⟨_, means⟩ := admits.input value shown
      simp [setText, checkInput_means means, bind, Except.bind]

end

/-! ## The whole line -/

/-- Arguments that say what an invocation asked for: they are accepted where their paths are, and they make the
choices that are retold. These are the choices that were made unless the name is empty or formatting is
switched off, and then the same becomes of all settings. -/
structure Repeats (there : FileTree) (words : List Text) (here : FileTree) (i : Invocation) : Prop where
  accepted : (∃ j, parse there words = .ok j) ↔ Admits there (shownText here i)
  choices : ∀ j, parse there words = .ok j → j.choices = i.choices.retold
  faithful : ∀ j, parse there words = .ok j →
    (j.choices = i.choices ↔ i.name ≠ some [] ∧ i.format ≠ some false)
  settings : ∀ j, parse there words = .ok j → i.name ≠ some [] → i.format ≠ some false →
    override j = override i

section

variable {tree here : FileTree} {arguments : List Text} {i : Invocation}

theorem findSample?_of_accepted (accepted : parse tree arguments = .ok i) {s : NamedSample}
    (asked : i.sample = some s) : findSample? s.name = some s := by
  obtain ⟨taken, took⟩ := taken_of_accepted accepted
  have sample := (parse_understands took accepted).2.sample
  rw [asked] at sample
  generalize (taken.last? .sample).bind Given.text? = given at sample
  cases sample with
  | some found => exact (findSample?_name found).2

theorem commandParts_repeats (accepted : parse tree arguments = .ok i) (legible : Legible here i)
    (there : FileTree) : Repeats there (commandParts here i) here i := by
  have took := take_commandParts here i legible.input
  have known (s) (asked : i.sample = some s) : findSample? s.name = some s :=
    findSample?_of_accepted accepted asked
  have understood (j) (again : parse there (commandParts here i) = .ok j) :
      Understands there (retell here i) j := by
    have understands := (parse_understands took again).2
    rwa [funext (retold_last? here i)] at understands
  have choices (j) (again : parse there (commandParts here i) = .ok j) : j.choices = i.choices.retold :=
    (understood j again).choices legible known
  have faithful (j) (again : parse there (commandParts here i) = .ok j) :
      j.choices = i.choices ↔ i.name ≠ some [] ∧ i.format ≠ some false := by
    rw [choices j again]
    exact Choices.retold_eq_iff _
  -- what is read again was all accepted once, but the paths may lead elsewhere now
  refine ⟨⟨?_, ?_⟩, choices, faithful, ?_⟩
  · rintro ⟨j, again⟩
    exact admits_of_understands (understood j again)
  · intro admits
    refine parse_settable took ?_ (retold_last? here i .help) fun p g last => ?_
    · unfold retold
      cases shownText here i .input <;> simp
    · rw [retold_last?] at last
      exact settable_retell admits known last
  · intro j again some formats
    exact override_congr ((faithful j again).2 ⟨some, formats⟩)

theorem longOptions_unbroken : ∀ s ∈ longOptions, CodePoint.ofChar ' ' ∉ s.text := by decide +kernel

theorem Legible.unbroken_parts (legible : Legible here i) :
    ∀ part ∈ commandParts here i, CodePoint.ofChar ' ' ∉ part := by
  intro part member
  rw [commandParts_eq, List.mem_append, List.mem_flatMap] at member
  rcases member with input | ⟨g, said, member⟩
  -- a part is a text that is shown or the spelling of an option
  · exact legible.unbroken .input part (Option.mem_toList.1 input)
  · obtain ⟨p, _, said⟩ := List.mem_filterMap.1 said
    rcases List.mem_append.1 member with spelling | text
    · obtain ⟨s, found, rfl⟩ := Option.map_eq_some_iff.1 (Option.mem_toList.1 spelling)
      exact longOptions_unbroken s (List.mem_of_find?_eq_some found)
    · exact legible.unbroken p part (shownText_of_retell said (Option.mem_toList.1 text))

theorem splitOn_joined {parts : List Text} (unbroken : ∀ part ∈ parts, CodePoint.ofChar ' ' ∉ part)
    (some : parts ≠ []) : (Text.joined " " parts).splitOn (CodePoint.ofChar ' ') = parts :=
  List.splitOn_intercalate _ unbroken some

theorem Legible.splitOn_commandLine (legible : Legible here i) :
    (commandLine here i).splitOn (CodePoint.ofChar ' ') = commandName :: commandParts here i := by
  apply splitOn_joined
  · have name : CodePoint.ofChar ' ' ∉ commandName := by decide
    exact List.forall_mem_cons.2 ⟨name, legible.unbroken_parts⟩
  · exact List.cons_ne_nil _ _

end

/-! ## Written files -/

theorem mem_written_writeAll {tree : FileTree} {files : List (Location × Text)} {next : Attempt}
    {file : Location × Text} (written : file ∈ (writeAll tree files next).written) :
    file ∈ files ∨ file ∈ next.written := by
  induction files with
  | nil => exact .inr written
  | cons first files ih =>
    rw [writeAll] at written
    split at written
    · cases written
    · rw [Attempt.written_after] at written
      rcases List.mem_append.1 written with here | later
      · cases List.mem_singleton.1 here
        exact .inl List.mem_cons_self
      · exact (ih later).imp_left (List.mem_cons_of_mem _)

theorem mem_written_writeDocuments {tree : FileTree} {i : Invocation} {directory : Location} {r : Result}
    {file : Location × Text} (written : file ∈ (writeDocuments tree i directory r).written) :
    file ∈ documentFiles (header (commandLine (tree.making directory) i)) directory r.documents := by
  unfold writeDocuments at written
  split at written
  · cases written
  · dsimp only at written
    split at written
    · cases written
    · rcases mem_written_writeAll written with document | closing
      · exact document
      · cases closing

theorem mem_written_present {tree : FileTree} {i : Invocation} {r : Result} {file : Location × Text}
    (written : file ∈ (present tree i r).written) :
    ∃ directory, i.outputDir = some directory ∧
      file ∈ documentFiles (header (commandLine (tree.making directory) i)) directory r.documents := by
  unfold present at written
  rw [Attempt.written_after_unseen (unseen_tellDiagnostics r)] at written
  split at written
  · cases written
  · split at written
    · cases written
    · next directory asked => exact ⟨directory, asked, mem_written_writeDocuments written⟩

theorem mem_written_perform {around : Surroundings} {tree : FileTree} {standardInput : List UInt8} {i : Invocation}
    {file : Location × Text} (written : file ∈ (perform around tree standardInput i).written) :
    ∃ r, file ∈ (present tree i r).written := by
  unfold perform at written
  split at written
  · cases written
  · cases written
  · split at written
    · cases written
    · rw [Attempt.written_after_unseen (unseen_logRecords _ _)] at written
      split at written
      · cases written
      · next r _ => exact ⟨r, written⟩

/-- Whatever comes of a run, a file that it wrote starts with the header. -/
theorem header_of_written {around : Surroundings} {tree : FileTree} {standardInput : List UInt8}
    {arguments : List Text} {i : Invocation} (accepted : parse tree arguments = .ok i)
    {file : Location × Text} (written : file ∈ (attempt around tree standardInput arguments).written) :
    ∃ directory code, i.outputDir = some directory ∧
      file.2 = header (commandLine (tree.making directory) i) ++ code := by
  rw [attempt, accepted] at written
  dsimp only at written
  split at written
  · cases written
  · obtain ⟨r, written⟩ := mem_written_perform written
    obtain ⟨directory, asked, document⟩ := mem_written_present written
    refine ⟨directory, ?_⟩
    simp only [documentFiles, documentFile, List.mem_cons, List.not_mem_nil, or_false] at document
    rcases document with rfl | rfl | rfl <;> exact ⟨_, asked, rfl⟩

/-- The command line of a header repeats what was asked for. A name that is shown as it is, texts without a
blank and an input that does not look like an option are all that is needed. -/
theorem commandLine_repeats (around : Surroundings) {tree : FileTree} (standardInput : List UInt8)
    {arguments : List Text} {i : Invocation} {directory : Location} (accepted : parse tree arguments = .ok i)
    (asked : i.outputDir = some directory) (legible : Legible (tree.making directory) i) :
    (∀ file ∈ (attempt around tree standardInput arguments).written,
      ∃ code, file.2 = header (commandLine (tree.making directory) i) ++ code) ∧
    ∃ words, (commandLine (tree.making directory) i).splitOn (CodePoint.ofChar ' ') = commandName :: words ∧
      ∀ there, Repeats there words (tree.making directory) i := by
  refine ⟨fun file written => ?_, _, legible.splitOn_commandLine, commandParts_repeats accepted legible⟩
  obtain ⟨directory', code, asked', same⟩ := header_of_written accepted written
  cases asked.symm.trans asked'
  exact ⟨code, same⟩

/-! ### Two runs -/

def strictUser : List Text :=
  ["--name", "User", "--style", "interface", "--strict", "--format", "-o", "out"]

theorem commandLine_repeats_strictUser : ∃ i s t r directory words j,
    Converts bare desk emptyObject strictUser i s t r ∧ r.isValid ∧ i.outputDir = some directory ∧
      Legible (desk.making directory) i ∧
      (∀ file ∈ (attempt bare desk emptyObject strictUser).written,
        ∃ code, file.2 = header (commandLine (desk.making directory) i) ++ code) ∧
      (commandLine (desk.making directory) i).splitOn (CodePoint.ofChar ' ') = commandName :: words ∧
      parse desk words = .ok j ∧ j.choices = i.choices := by
  have accepted : parse desk strictUser =
      .ok
        { name := some "User", style := some .interface, strict := true, format := some true,
          outputDir := some ["work", "out"] } := rfl
  obtain ⟨r, converts, valid, _⟩ := converts_emptyObject_under accepted rfl rfl rfl rfl rfl rfl rfl
  have legible : Legible (desk.making ["work", "out"])
      { name := some "User", style := some .interface, strict := true, format := some true,
        outputDir := some ["work", "out"] } := by
    refine ⟨fun p text shown => ?_, fun name given => ?_, fun path shown => ?_⟩
    · cases p <;> cases shown <;> decide
    · cases given
      rfl
    · cases shown
  obtain ⟨headed, words, split, repeats⟩ :=
    commandLine_repeats bare emptyObject accepted rfl legible
  have admits : Admits desk (shownText (desk.making ["work", "out"])
      { name := some "User", style := some .interface, strict := true, format := some true,
        outputDir := some ["work", "out"] }) := by
    refine ⟨fun path shown => ?_, fun path shown => ?_, fun path shown => ?_⟩ <;> cases shown
    exact ⟨_, rfl, rfl, rfl⟩
  obtain ⟨j, again⟩ := (repeats desk).accepted.2 admits
  have same := ((repeats desk).faithful j again).2 (by decide)
  exact ⟨_, _, _, r, _, words, j, converts, valid, rfl, legible, headed, split, again, same⟩

def plainObject : List Text := ["--no-format", "-o", "out"]

/-- The choice not to format is not in the header, so that who reads it again makes no choice. -/
theorem commandLine_forgetsFormat : ∃ i s t r j,
    Converts bare desk emptyObject plainObject i s t r ∧ r.isValid ∧
      Legible (desk.making ["work", "out"]) i ∧
      (attempt bare desk emptyObject plainObject).written =
        documentFiles (header (commandLine (desk.making ["work", "out"]) i)) ["work", "out"] r.documents ∧
      (commandLine (desk.making ["work", "out"]) i).splitOn (CodePoint.ofChar ' ') =
        [commandName, "--output-dir", "out"] ∧
      parse desk ["--output-dir", "out"] = .ok j ∧ i.format = some false ∧ j.format = none ∧
      j.choices ≠ i.choices := by
  have accepted : parse desk plainObject =
      .ok { format := some false, outputDir := some ["work", "out"] } := rfl
  have again : parse desk ["--output-dir", "out"] = .ok { outputDir := some ["work", "out"] } := rfl
  obtain ⟨r, converts, valid, _⟩ := converts_emptyObject_under accepted rfl rfl rfl rfl rfl rfl rfl
  have legible : Legible (desk.making ["work", "out"])
      { format := some false, outputDir := some ["work", "out"] } := by
    refine ⟨fun p text shown => ?_, fun name given => ?_, fun path shown => ?_⟩
    · cases p <;> cases shown
      decide
    · cases given
    · cases shown
  have writable : Writable desk none ["work", "out"] := by
    refine ⟨by decide, ?_, fun name given => ?_⟩
    · simp only [documentNames, List.forall_mem_cons]
      exact ⟨rfl, rfl, rfl, List.forall_mem_nil _⟩
    · cases given
  have written := (attempt_saved converts valid rfl writable).2.2
  refine ⟨_, _, _, r, _, converts, valid, legible, written, legible.splitOn_commandLine, again, rfl, rfl, ?_⟩
  -- no is written as little as no answer
  intro same
  cases congrArg Choices.format same

end JsonShape.Cli
