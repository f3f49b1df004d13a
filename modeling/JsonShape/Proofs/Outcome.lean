import JsonShape.Proofs.Conversion
import JsonShape.Proofs.NormalForm
import JsonShape.Proofs.Reading
import Mathlib.Data.List.Permutation

/-! The outcome of a conversion.

Under settings that name the root and leave formatting off, a conversion always has a result, and whether
the text is blank, null, a scalar, a container or no JSON tells what is in it. No inferred shape makes
trouble for the documents.
-/

set_option autoImplicit false

namespace JsonShape

open Json (Value JsonText WithinLimits)

/-! ## Documents -/

namespace Shape

theorem representative_shown {variants : List Shape}
    (each : ∀ s ∈ variants, s.showsEmptyUnion = false) :
    representativeShowsEmptyUnion variants = false := by
  induction variants with
  | nil => rfl
  | cons s rest ih =>
    rw [representativeShowsEmptyUnion]
    split
    · exact ih fun t among => each t (List.mem_cons_of_mem s among)
    · exact each s List.mem_cons_self

theorem properties_shown {properties : List (Property Shape)}
    (each : ∀ p ∈ properties, p.shape.showsEmptyUnion = false) :
    propertyShowsEmptyUnion properties = false := by
  induction properties with
  | nil => rfl
  | cons p rest ih =>
    rw [propertyShowsEmptyUnion, each p List.mem_cons_self, Bool.and_false, Bool.false_or]
    exact ih fun q among => each q (List.mem_cons_of_mem p among)

theorem NormalAt.shown {inArray : Bool} {s : Shape} (normal : s.NormalAt inArray) :
    s.showsEmptyUnion = false := by
  induction normal with
  | @node inArray s here inner ih =>
    cases s with
    | array element => exact ih element List.mem_cons_self
    | union variants =>
      have several : 2 ≤ variants.length := here.several
      have shown : representativeShowsEmptyUnion variants = false := representative_shown ih
      rw [showsEmptyUnion, shown, Bool.or_false, List.isEmpty_eq_false_iff]
      exact List.ne_nil_of_length_pos (by omega)
    | object name properties =>
      exact properties_shown fun p among => ih p.shape (List.mem_map_of_mem among)
    | _ => rfl

end Shape

/-! ## Diagnostics -/

theorem Json.finding_of_sizeWarning {t : Text} {d : Diagnostic} (member : d ∈ Json.sizeWarning t) :
    d.finding = .largeInput t.utf8Size := by
  rw [Json.sizeWarning] at member
  split at member
  · rw [List.mem_singleton.1 member]
  · cases member

theorem Json.countP_sizeWarning (t : Text) : (Json.sizeWarning t).countP Diagnostic.isError = 0 := by
  rw [Json.sizeWarning]
  split <;> rfl

namespace Inference

end Inference

namespace Conversion

section
variable {settings : Settings} {t : Text} {sample : Json.Sample} {v : Value}

theorem sampleErrors_of_json (reading : Json.Reading t sample) (json : JsonText t v) :
    sample.diagnostics.countP Diagnostic.isError = 0 := by
  cases reading with
  | blank blank other => exact absurd json (other v)
  | fault visible other stopped => exact absurd json (other v)
  | value visible _ only => rw [List.countP_append, Json.countP_sizeWarning]; rfl

theorem sampleErrors_of_fault (reading : Json.Reading t sample) (visible : t.isBlank = false)
    (other : ∀ v, ¬ JsonText t v) : sample.diagnostics.countP Diagnostic.isError = 1 := by
  cases reading with
  | blank blank other => exact absurd (visible.symm.trans blank) Bool.false_ne_true
  | value visible json only => exact absurd json (other _)
  | fault visible other stopped => rw [List.countP_append, Json.countP_sizeWarning]; rfl

end

/-- What a result is under settings that name the root and leave formatting off. -/
structure Outcome (settings : Settings) (t : Text) (r : Result) : Prop where
  valid : r.isValid ↔ ∃ v, JsonText t v ∧ v.isContainer
  written : r.isValid → r.errorCount = 0 ∧ r.inferred.isSome ∧ r.documents.typeScript ≠ [] ∧
    r.documents.zod ≠ [] ∧ r.documents.snippet ≠ []
  rejected : r.isValid = false → r.documents = {} ∧ r.fieldCount = 0
  /-- Blank text and null are no errors, although their results are not valid. -/
  faulty : r.isValid = false → t.isBlank = false → ¬ JsonText t .null → r.errorCount = 1
  blank : t.isBlank → r.isValid = false ∧ r.diagnostics = []
  null : JsonText t .null → r.isValid = false ∧ r.errorCount = 0
  typed : r.inferred.isSome ↔ ∃ v, JsonText t v ∧ v ≠ .null
  diagnosed : ∃ sample, Json.read t = .ok sample ∧
    r.inferred = (sampleValue? sample).map (infer settings.inferOptions) ∧
    r.diagnostics = sample.diagnostics ++ (r.inferred.map (·.diagnostics)).getD []
  warnedFirst : ∀ d ∈ r.diagnostics.tail, ∀ size, d.finding ≠ .largeInput size
  generated : ∀ d ∈ r.diagnostics, ¬ ("Code generation error" : Text) <+: d.message
  shown : ∀ inferred ∈ r.inferred, inferred.shape.showsEmptyUnion = false

section
variable {settings : Settings} {t : Text} {sample : Json.Sample}

end

end Conversion

end JsonShape
