import JsonShape.Proofs.Conversion
import JsonShape.Proofs.Discovery
import JsonShape.Proofs.GivenOptions
import JsonShape.Proofs.PrintedText
import Mathlib.Data.List.Permutation

/-! The command as a whole.

A run does everything that can fail before anything that leaves a trace: it prints or writes documents only
once the arguments are accepted, the settings and the input are read and the conversion has succeeded. What it
prints and writes then are the documents, and what it tells besides are the diagnostics.
-/

set_option autoImplicit false

namespace JsonShape.Cli

/-! ## Steps of a run -/

namespace Attempt

variable (first : List Action) (a : Attempt)

@[simp] theorem output_after : (a.after first).output = first.flatMap Action.printed ++ a.output :=
  List.flatMap_append

@[simp] theorem written_after : (a.after first).written = first.filterMap Action.file? ++ a.written :=
  List.filterMap_append

structure Silent (a : Attempt) : Prop where
  output : a.output = []
  written : a.written = []

/-- Steps that print nothing and write no file. -/
def Unseen (actions : List Action) : Prop :=
  ∀ action ∈ actions, action.printed = [] ∧ action.file? = none

variable {first a}

theorem output_after_unseen (unseen : Unseen first) : (a.after first).output = a.output := by
  have none : first.flatMap Action.printed = [] :=
    List.flatMap_eq_nil_iff.2 fun action among => (unseen action among).1
  simp [none]

theorem written_after_unseen (unseen : Unseen first) : (a.after first).written = a.written := by
  have none : first.filterMap Action.file? = [] :=
    List.filterMap_eq_nil_iff.2 fun action among => (unseen action among).2
  simp [none]

theorem Silent.after (silent : a.Silent) (unseen : Unseen first) : (a.after first).Silent :=
  ⟨(output_after_unseen unseen).trans silent.output, (written_after_unseen unseen).trans silent.written⟩

end Attempt

open Attempt (Unseen output_after_unseen written_after_unseen)

theorem unseen_map {α : Type} {step : α → Action} (each : ∀ x, (step x).printed = [] ∧ (step x).file? = none)
    (list : List α) : Unseen (list.map step) := by
  intro action among
  obtain ⟨x, _, rfl⟩ := List.mem_map.1 among
  exact each x

theorem unseen_tellDiagnostics (r : Result) : Unseen (tellDiagnostics r) :=
  unseen_map (fun _ => ⟨rfl, rfl⟩) _

theorem unseen_logRecords (verbose : Bool) (records : List LogRecord) :
    Unseen (logRecords verbose records) :=
  unseen_map (fun _ => ⟨rfl, rfl⟩) _

def documentNames : List Text := ["types.ts", "schema.ts", "example.ts"]

def documentFile (top : Text) (directory : Location) (name code : Text) : Location × Text :=
  (directory ++ [name], top ++ code)

def documentFiles (top : Text) (directory : Location) (d : Documents) : List (Location × Text) :=
  [documentFile top directory "types.ts" d.typeScript, documentFile top directory "schema.ts" d.zod,
    documentFile top directory "example.ts" d.snippet]

theorem map_documentFiles (top : Text) (directory : Location) (d : Documents) :
    (documentFiles top directory d).map (·.1) = documentNames.map fun name => directory ++ [name] := rfl

theorem writeAll_of_free {tree : FileTree} {files : List (Location × Text)} (next : Attempt)
    (free : ∀ file ∈ files, writeStop? tree file.1 = none) :
    writeAll tree files next = next.after (files.map fun (l, content) => .write l content) := by
  induction files with
  | nil => rfl
  | cons file files ih =>
    obtain ⟨here, later⟩ := List.forall_mem_cons.1 free
    rw [writeAll, here, ih later]
    rfl

def FileTree.making (tree : FileTree) (directory : Location) : FileTree :=
  { tree with directories := directory :: tree.directories }

theorem writeStop?_making (tree : FileTree) (directory : Location) (name : Text) :
    writeStop? (tree.making directory) (directory ++ [name]) = writeStop? tree (directory ++ [name]) := by
  have outside : (directory ++ [name]).isPrefixOf directory = false := by
    rw [Bool.eq_false_iff, Ne, List.isPrefixOf_iff_prefix]
    intro inside
    have length := inside.length_le
    rw [List.length_append, List.length_singleton] at length
    exact absurd length (Nat.not_succ_le_self _)
  have same : (tree.making directory).isDirectory (directory ++ [name]) =
      tree.isDirectory (directory ++ [name]) := by
    simp [FileTree.making, FileTree.isDirectory, FileTree.file?, outside]
  rw [writeStop?, writeStop?, same]

/-- Documents can be saved in a directory: it can be made, no directory is in the way of a document there, and
a name that was given for the root can be looked up for the header. -/
structure Writable (tree : FileTree) (given : Option Text) (directory : Location) : Prop where
  creatable : tree.obstacle? directory = none
  free : ∀ name ∈ documentNames, writeStop? tree (directory ++ [name]) = none
  readable : ∀ name, given = some name → (tree.making directory).isTooLong name = false

theorem writeDocuments_eq {tree : FileTree} {i : Invocation} {directory : Location}
    (writable : Writable tree i.name directory) (r : Result) :
    ∃ closing, writeDocuments tree i directory r =
      { actions := (documentFiles (header (commandLine (tree.making directory) i)) directory r.documents).map
          (fun (l, content) => .write l content) ++ [.tell closing]
        ending := .ok 0 } := by
  have noStop : directoryStop? tree directory = none := by
    rw [directoryStop?, writable.creatable]
    rfl
  have short : i.name.any (tree.making directory).isTooLong = false := by
    cases name : i.name with
    | none => rfl
    | some name' => exact writable.readable name' name
  have free (top : Text) : ∀ file ∈ documentFiles top directory r.documents,
      writeStop? (tree.making directory) file.1 = none := by
    intro file member
    have listed := List.mem_map_of_mem (f := Prod.fst) member
    rw [map_documentFiles] at listed
    obtain ⟨name, named, same⟩ := List.mem_map.1 listed
    rw [← same, writeStop?_making]
    exact writable.free name named
  rw [writeDocuments, noStop]
  change ∃ closing, (if i.name.any (tree.making directory).isTooLong = true then _ else writeAll _ _ _) = _
  rw [short, if_neg Bool.false_ne_true]
  exact ⟨_, writeAll_of_free _ (free _)⟩

/-- The text to convert: that of a sample, of standard input or of a file. -/
inductive Chosen (tree : FileTree) (standardInput : List UInt8) (i : Invocation) : Text → Prop where
  | sample {s : NamedSample} (asked : i.sample = some s) : Chosen tree standardInput i s.text
  | standardInput {t : Text} (noSample : i.sample = none) (noFile : ∀ path, i.input = some path → path = "-")
      (read : readText standardInput = .ok t) : Chosen tree standardInput i t
  | file {path : Text} {bytes : List UInt8} {t : Text} (noSample : i.sample = none)
      (asked : i.input = some path) (other : path ≠ "-") (found : tree.find? path = some (.file bytes))
      (read : readText bytes = .ok t) : Chosen tree standardInput i t

theorem inputText_sample {i : Invocation} {s : NamedSample} (asked : i.sample = some s) (tree : FileTree)
    (standardInput : List UInt8) : inputText tree standardInput i = .ok s.text := by
  rw [inputText, asked]

theorem inputText_bytes {i : Invocation} (noSample : i.sample = none) (tree : FileTree)
    (standardInput : List UInt8) (t : Text) :
    inputText tree standardInput i = .ok t ↔ readText (inputBytes tree standardInput i.input) = .ok t := by
  rw [inputText, noSample]
  dsimp only
  cases readText (inputBytes tree standardInput i.input) <;> simp [Except.mapError]

theorem inputText_iff {tree : FileTree} {standardInput : List UInt8} {given : Option Text} {i : Invocation}
    (means : Option.Rel (MeansInput tree) given i.input) (t : Text) :
    inputText tree standardInput i = .ok t ↔ Chosen tree standardInput i t := by
  constructor
  · intro found
    cases sample : i.sample with
    | some s =>
      rw [inputText_sample sample] at found
      cases found
      exact .sample sample
    | none =>
      rw [inputText_bytes sample] at found
      cases input : i.input with
      | none =>
        rw [input] at found
        exact .standardInput sample (by rw [input]; exact nofun) found
      | some path =>
        rw [input] at found means
        by_cases dash : path = "-"
        · rw [inputBytes, if_pos dash] at found
          refine .standardInput sample (fun path' asked => ?_) found
          cases input.symm.trans asked
          exact dash
        · cases means with
          | some there =>
            obtain ⟨rfl, dash' | ⟨_, bytes, file⟩⟩ := there
            · exact absurd dash' dash
            · rw [inputBytes, if_neg dash, file] at found
              exact .file sample input dash file found
  · rintro (asked | ⟨noSample, noFile, read⟩ | ⟨noSample, asked, other, file, read⟩)
    · exact inputText_sample asked tree standardInput
    · rw [inputText_bytes noSample]
      cases input : i.input with
      | none => exact read
      | some path => rwa [inputBytes, if_pos (noFile path input)]
    · rwa [inputText_bytes noSample, asked, inputBytes, if_neg other, file]

/-! ## Conversion -/

/-- The arguments are accepted and ask for a conversion, the settings and the input can be had, and this is
what the conversion gives. -/
structure Converts (around : Surroundings) (tree : FileTree) (standardInput : List UInt8) (arguments : List Text)
    (i : Invocation) (s : SettingsObject) (t : Text) (r : Result) : Prop where
  accepted : parse tree arguments = .ok i
  converting : i.listSamples = false
  settings : effectiveSettings tree i = .ok s
  input : Chosen tree standardInput i t
  result : convert around.format s t = .ok r

theorem present_written {tree : FileTree} {i : Invocation} {r : Result} (valid : r.isValid)
    {directory : Location} (asked : i.outputDir = some directory) :
    present tree i r = (writeDocuments tree i directory r).after (tellDiagnostics r) := by
  rw [present, valid, asked]
  rfl

/-! ## The whole run -/

section

variable {around : Surroundings} {tree : FileTree} {standardInput : List UInt8} {arguments : List Text}

theorem attempt_converts {i : Invocation} {s : SettingsObject} {t : Text} {r : Result}
    (converts : Converts around tree standardInput arguments i s t r) :
    attempt around tree standardInput arguments =
      (present tree i r).after (logRecords i.verbose (around.records s t)) := by
  obtain ⟨accepted, converting, settings, input, result⟩ := converts
  obtain ⟨taken, took⟩ := taken_of_accepted accepted
  obtain ⟨_, understands⟩ := parse_understands took accepted
  have found := (inputText_iff understands.input t).2 input
  rw [attempt, accepted]
  dsimp only
  rw [converting, if_neg Bool.false_ne_true, perform, settings]
  dsimp only
  rw [found]
  dsimp only
  rw [result]

theorem attempt_saved {i : Invocation} {s : SettingsObject} {t : Text} {r : Result}
    (converts : Converts around tree standardInput arguments i s t r) (valid : r.isValid)
    {directory : Location} (asked : i.outputDir = some directory)
    (writable : Writable tree i.name directory) :
    (attempt around tree standardInput arguments).ending = .ok 0 ∧
      (attempt around tree standardInput arguments).output = [] ∧
      (attempt around tree standardInput arguments).written =
        documentFiles (header (commandLine (tree.making directory) i)) directory r.documents := by
  obtain ⟨closing, written⟩ := writeDocuments_eq writable r
  rw [attempt_converts converts, present_written valid asked, written]
  refine ⟨rfl, ?_, ?_⟩
  · simp only [output_after_unseen, unseen_logRecords, unseen_tellDiagnostics]
    rfl
  · simp only [written_after_unseen, unseen_logRecords, unseen_tellDiagnostics]
    rfl

end

/-! ### An empty object on standard input -/

def bare : Surroundings where
  format _ code := some code
  helpPage := []
  selector := []
  traceback _ := []
  formatterRecords := []

def desk : FileTree := { home := ["work"], files := [] }

def emptyObject : List UInt8 := Text.encodeUtf8 "\x7b\x7d"

def named (name : Text) : Settings := { rootName := .string name }

theorem converts_emptyObject_under {arguments : List Text} {i : Invocation} {s : SettingsObject} {name : Text}
    {o : FormatterOptions} (accepted : parse desk arguments = .ok i) (converting : i.listSamples = false)
    (settings : effectiveSettings desk i = .ok s) (rootName : s.rootName = .string name)
    (formatter : s.formatter = .options o) (infers : s.infers) (noSample : i.sample = none) (noInput : i.input = none) :
    ∃ r, Converts bare desk emptyObject arguments i s "\x7b\x7d" r ∧ r.isValid ∧
      r.documents = Conversion.documentsOf s.toSettings (.object name []) := by
  have reading : Json.read "\x7b\x7d" = .ok ⟨some (.object []), [⟨.parsed, []⟩]⟩ := by cbv
  have decoded : readText emptyObject = .ok "\x7b\x7d" := by cbv
  have written : Conversion.writtenFor? bare.format s.toSettings o (.object []) =
      some (Conversion.documentsOf s.toSettings (infer s.inferOptions (.object [])).shape) := by
    unfold Conversion.writtenFor?
    split <;> rfl
  have converted :=
    @Conversion.convert_of_container bare.format s _ _ _ _ _ rootName formatter infers reading rfl rfl
  rw [written] at converted
  refine ⟨_, ⟨accepted, converting, settings, ?_, converted⟩, rfl, ?_⟩
  · exact .standardInput noSample (fun _ given => by cases noInput.symm.trans given) decoded
  · rw [Conversion.validResult, Inference.infer_shape, Settings.inferOptions, Settings.rootText, rootName]
    rfl

end JsonShape.Cli
