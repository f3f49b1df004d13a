import JsonShape.Conversion
import JsonShape.Proofs.Observations

/-! What a conversion gives.

Once the text has been read, only settings that name no root or hold no options can stop a conversion
before its documents are formatted. Otherwise its result is told by the value: there is none, or it is a
container and gets documents, or it is an error to have it at the root.
-/

set_option autoImplicit false

namespace JsonShape

open Json (Value)

namespace Inference

/-! ## Errors of inference -/

theorem mem_notesElements {dates : Bool} {path : Path} {i : Nat} {elements : List Value}
    {d : Diagnostic} (member : d ∈ notesElements dates path i elements) :
    ∃ v ∈ elements, ∃ place, d ∈ notes dates place v := by
  rw [notesElements_eq] at member
  obtain ⟨⟨v, j⟩, among, found⟩ := List.mem_flatMap.1 member
  exact ⟨v, List.fst_mem_of_mem_zipIdx among, _, found⟩

def innerFindings : List Finding := [.dateString, .emptyArray, .mixedElements, .mixedObjects]

theorem arrayFinding?_mem {shapes : List Shape} {found : Finding}
    (finding : arrayFinding? shapes = some found) : found ∈ innerFindings := by
  unfold arrayFinding? at finding
  split at finding
  · cases finding; decide
  · split at finding
    · cases finding
    · split at finding
      · cases finding; decide
      · split at finding <;> cases finding
        decide

theorem finding_of_mem_notes {dates : Bool} {path : Path} {v : Value} {d : Diagnostic}
    (member : d ∈ notes dates path v) : d.finding ∈ innerFindings := by
  induction v generalizing path with
  | string s =>
    rw [notes] at member
    split at member <;> cases member
    · exact List.mem_cons_self
    · next never => cases never
  | array elements ih =>
    rw [notes] at member
    rcases List.mem_append.1 member with inner | here
    · obtain ⟨v, among, place, found⟩ := mem_notesElements inner
      exact ih v among found
    · rw [noted, Option.mem_toList, Option.map_eq_some_iff] at here
      obtain ⟨found, finding, rfl⟩ := here
      exact arrayFinding?_mem finding
  | object members ih =>
    rw [notes, notesMembers_eq] at member
    obtain ⟨m, among, found⟩ := List.mem_flatMap.1 member
    exact ih m among found
  | _ => cases member

theorem isError_of_mem_notes {dates : Bool} {path : Path} {v : Value} {d : Diagnostic}
    (member : d ∈ notes dates path v) : d.isError = false := by
  have level : ∀ found ∈ innerFindings, found.level ≠ .error := by decide
  exact decide_eq_false (level d.finding (finding_of_mem_notes member))

/-- The only error of inference is a root that is no container. -/
theorem errors_infer (o : Options) (v : Value) :
    (infer o v).diagnostics.filter Diagnostic.isError =
      if v.isContainer then [] else [⟨.scalarRoot, []⟩] := by
  have none : (notes o.detectsDates [] v).filter Diagnostic.isError = [] :=
    List.filter_eq_nil_iff.2 fun d member => by simp [isError_of_mem_notes member]
  rw [infer_diagnostics, List.filter_append, none, List.append_nil]
  split <;> rfl

theorem hasErrors_infer (o : Options) (v : Value) : (infer o v).hasErrors = !v.isContainer := by
  have errors := errors_infer o v
  rw [Inferred.hasErrors]
  cases container : v.isContainer with
  | true =>
    rw [container, if_pos rfl, List.filter_eq_nil_iff] at errors
    simpa using errors
  | false =>
    rw [container, if_neg Bool.false_ne_true] at errors
    have member : ⟨.scalarRoot, []⟩ ∈ (infer o v).diagnostics.filter Diagnostic.isError := by
      rw [errors, List.mem_singleton]
    exact List.any_eq_true.2 ⟨_, List.mem_filter.1 member⟩

end Inference

namespace Conversion

theorem decode_of_read {t : Text} {sample : Json.Sample} {v : Value} (reading : Json.read t = .ok sample)
    (value : sampleValue? sample = some v) : Json.decode Json.strict t = .ok v := by
  have valued : sample.value = some v := by
    rw [sampleValue?] at value
    split at value
    · cases value
    · exact value
  unfold Json.read at reading
  split at reading
  · cases reading
    cases valued
  · split at reading
    · cases reading
    · split at reading
      · next decoded =>
        cases reading
        cases valued
        exact decoded
      · split at reading <;> cases reading <;> cases valued

def outcome (settings : Settings) (sample : Json.Sample) : Result :=
  match sampleValue? sample with
  | none => { diagnostics := sample.diagnostics, rootName := settings.rootName }
  | some v =>
    let inferred := infer settings.inferOptions v
    { documents := if v.isContainer then documentsOf settings inferred.shape else {}
      diagnostics := sample.diagnostics ++ inferred.diagnostics
      isValid := v.isContainer
      fieldCount := inferred.fieldCount
      rootName := settings.rootName
      inferred := some inferred }

/-- What is left to do with a result: its documents are formatted if it has any and the options ask for it. -/
def pending (o : FormatterOptions) (r : Result) : Progressed :=
  if o.enabled.holds && r.isValid then .formatting o r else .done r

/-- A text for the root name and options for inference and the formatter are all that a conversion needs. -/
theorem start_of_read {settings : SettingsObject} {t name : Text} {o : FormatterOptions} {sample : Json.Sample}
    (named : settings.rootName = .string name) (options : settings.formatter = .options o)
    (infers : settings.infers) (reading : Json.read t = .ok sample) :
    start settings t = .ok (pending o (outcome settings.toSettings sample)) := by
  have usable (v : Value) : nameIsUnusable settings.rootName v = false := by rw [named]; rfl
  have faultless : NameFault.ofValue? settings.rootName = none := by rw [named]; rfl
  rw [start, reading, outcome, pending]
  dsimp only
  cases sampleValue? sample with
  | none => simp
  | some v =>
    have clean := Inference.hasErrors_infer settings.inferOptions v
    simp only [inferred, infers, usable, Except.bind, write, faultless, options]
    by_cases container : v.isContainer
    · by_cases formats : o.enabled.holds <;> simp [clean, container, formats]
    · simp [clean, container]

theorem convert_of_read {format : Format} {settings : SettingsObject} {t name : Text} {o : FormatterOptions}
    {sample : Json.Sample} (named : settings.rootName = .string name)
    (options : settings.formatter = .options o) (infers : settings.infers)
    (reading : Json.read t = .ok sample) :
    convert format settings t = (pending o (outcome settings.toSettings sample)).finish format := by
  rw [convert, start_of_read named options infers reading]
  rfl

def writtenFor? (format : Format) (settings : Settings) (o : FormatterOptions) (v : Value) :
    Option Documents :=
  let documents := documentsOf settings (infer settings.inferOptions v).shape
  if o.enabled.holds then documents.map? (format o) else some documents

def validResult (settings : Settings) (notes : List Diagnostic) (v : Value) (documents : Documents) : Result where
  documents := documents
  diagnostics := notes ++ (infer settings.inferOptions v).diagnostics
  isValid := true
  fieldCount := (infer settings.inferOptions v).fieldCount
  rootName := settings.rootName
  inferred := some (infer settings.inferOptions v)

theorem convert_of_container {format : Format} {settings : SettingsObject} {t name : Text}
    {o : FormatterOptions} {sample : Json.Sample} {v : Value}
    (named : settings.rootName = .string name) (options : settings.formatter = .options o)
    (infers : settings.infers) (reading : Json.read t = .ok sample)
    (value : sampleValue? sample = some v) (container : v.isContainer) :
    convert format settings t =
      match writtenFor? format settings.toSettings o v with
      | some documents => .ok (validResult settings.toSettings sample.diagnostics v documents)
      | none => .error .formatter := by
  rw [convert_of_read named options infers reading, outcome, value, pending, writtenFor?]
  by_cases formats : o.enabled.holds
  · simp only [formats, container, Bool.and_true, if_true, Progressed.finish]
    cases Documents.map? (format o) _ <;> rfl
  · simp [formats, container, Progressed.finish, validResult]

theorem writtenFor?_plain {format : Format} {settings : Settings} {o : FormatterOptions}
    (plain : o.enabled.holds = false) (v : Value) :
    writtenFor? format settings o v = some (documentsOf settings (infer settings.inferOptions v).shape) := by
  simp [writtenFor?, plain]

theorem text_of_faultless {rootName : Value} (faultless : NameFault.ofValue? rootName = none) :
    ∃ name, rootName = .string name := by
  cases rootName with
  | string name => exact ⟨name, rfl⟩
  | number n => cases n <;> cases faultless
  | _ => cases faultless

theorem write_valid {format : Format} {settings : Settings} {notes : List Diagnostic} {i : Inferred}
    {p : Progressed} {r : Result} (written : write settings notes i = .ok p)
    (finished : p.finish format = .ok r) (valid : r.isValid) :
    i.hasErrors = false ∧ (∃ name, settings.rootName = .string name) ∧
      ∃ o, settings.formatter = .options o := by
  rw [write] at written
  split at written
  · cases written
    cases finished
    cases valid
  · next clean =>
    split at written
    · cases written
      cases finished
      cases valid
    · next faultless =>
      dsimp only at written
      split at written
      · next o options =>
        exact ⟨Bool.eq_false_iff.2 clean, text_of_faultless faultless, o, options⟩
      · cases written

theorem inferred_eq_ok {settings : SettingsObject} {v : Value} {found : Inferred}
    (infers : inferred settings v = .ok found) :
    settings.infers ∧ found = infer settings.inferOptions v := by
  unfold inferred at infers
  split at infers
  · cases infers
  · next able =>
    split at infers <;> cases infers
    exact ⟨by simpa using able, rfl⟩

/-- Where a valid result comes from. -/
theorem read_of_valid {format : Format} {settings : SettingsObject} {t : Text} {r : Result}
    (converted : convert format settings t = .ok r) (valid : r.isValid) :
    ∃ name o sample v, settings.rootName = .string name ∧ settings.formatter = .options o ∧
      settings.infers ∧ Json.read t = .ok sample ∧ sampleValue? sample = some v ∧ v.isContainer := by
  rw [convert, start] at converted
  cases reading : Json.read t with
  | error why => rw [reading] at converted; cases converted
  | ok sample =>
    rw [reading] at converted
    dsimp only at converted
    cases value : sampleValue? sample with
    | none => rw [value] at converted; cases converted; cases valid
    | some v =>
      rw [value] at converted
      dsimp only at converted
      cases infers : inferred settings v with
      | error f => rw [infers] at converted; cases converted
      | ok found =>
        obtain ⟨able, rfl⟩ := inferred_eq_ok infers
        rw [infers] at converted
        cases written : write settings.toSettings sample.diagnostics (infer settings.inferOptions v) with
        | error f => simp [Except.bind, written] at converted
        | ok p =>
          simp only [Except.bind, written] at converted
          obtain ⟨clean, ⟨name, named⟩, o, options⟩ := write_valid written converted valid
          rw [Inference.hasErrors_infer, Bool.not_eq_false'] at clean
          exact ⟨name, o, sample, v, named, options, able, rfl, value, clean⟩

end Conversion

end JsonShape
