import JsonShape.Proofs.Limits

/-! Reading a sample.

A text within the limits is blank, a JSON text or at fault, and no two of these at once. A sample tells
which: blank text leaves nothing at all, a JSON text its value and a note, and a fault one error.
-/

set_option autoImplicit false

namespace JsonShape.Json

variable {t : Text} {v : Value}

theorem decode_eq_ok (within : WithinLimits strict.maxDepth t) :
    decode strict t = .ok v ↔ JsonText t v := by
  constructor
  · exact jsonText_of_decode
  · intro json
    rcases decode_of_jsonText json with ⟨fault, stopped, limit⟩ | decoded
    · exact absurd limit (by rw [isLimit_decode within stopped]; exact Bool.false_ne_true)
    · exact decoded

theorem JsonText.unique (within : WithinLimits strict.maxDepth t) {w : Value} (first : JsonText t v)
    (second : JsonText t w) : v = w :=
  Except.ok.inj (((decode_eq_ok within).2 first).symm.trans ((decode_eq_ok within).2 second))

theorem JsonText.not_blank (json : JsonText t v) : t.isBlank = false := by
  obtain ⟨before, c, rest, rfl, _, start⟩ := json.start
  have printed : ∀ c ∈ valueStarts, c.isBlank = false := by decide
  rw [Text.isBlank, List.all_append, List.all_cons, printed c start, Bool.false_and, Bool.and_false]

def faultNote (t : Text) (fault : Fault) : Diagnostic :=
  let place := faultPosition t fault
  ⟨.syntaxError place.line place.column fault.cause, []⟩

/-- What is read of a text, by what kind of text it is. -/
inductive Reading (t : Text) : Sample → Prop where
  | blank (blank : t.isBlank) (other : ∀ v, ¬ JsonText t v) : Reading t ⟨none, []⟩
  | value {v : Value} (visible : t.isBlank = false) (json : JsonText t v)
      (only : ∀ w, JsonText t w → w = v) :
      Reading t ⟨some v, sizeWarning t ++ [⟨.parsed, []⟩]⟩
  | fault {fault : Fault} (visible : t.isBlank = false) (other : ∀ v, ¬ JsonText t v)
      (stopped : decode strict t = .error fault) : Reading t ⟨none, sizeWarning t ++ [faultNote t fault]⟩

theorem read_jsonText (within : WithinLimits strict.maxDepth t) (encodable : t.isEncodable)
    (json : JsonText t v) : read t = .ok ⟨some v, sizeWarning t ++ [⟨.parsed, []⟩]⟩ := by
  simp [read, json.not_blank, encodable, (decode_eq_ok within).2 json]

theorem read_fault {fault : Fault} (within : WithinLimits strict.maxDepth t) (encodable : t.isEncodable)
    (visible : t.isBlank = false) (stopped : decode strict t = .error fault) :
    read t = .ok ⟨none, sizeWarning t ++ [faultNote t fault]⟩ := by
  have noLimit := isLimit_decode within stopped
  simp only [read, visible, encodable, stopped, Bool.not_true, Bool.false_eq_true, if_false]
  split
  · next isDigits => rw [isDigits] at noLimit; cases noLimit
  · next isDeep => rw [isDeep] at noLimit; cases noLimit
  · rfl

/-- A text within the limits is read if it can be encoded. -/
theorem reading (within : WithinLimits strict.maxDepth t) (encodable : t.isEncodable) :
    ∃ sample, read t = .ok sample ∧ Reading t sample := by
  cases visible : t.isBlank with
  | true =>
    refine ⟨_, by rw [read, if_pos visible], .blank visible fun v json => ?_⟩
    exact Bool.false_ne_true (json.not_blank.symm.trans visible)
  | false =>
    cases decoded : decode strict t with
    | ok v =>
      have json := jsonText_of_decode decoded
      exact ⟨_, read_jsonText within encodable json, .value visible json fun w other => other.unique within json⟩
    | error fault =>
      have other (v : Value) (json : JsonText t v) : False := by
        cases ((decode_eq_ok within).2 json).symm.trans decoded
      exact ⟨_, read_fault within encodable visible decoded, .fault visible other decoded⟩

end JsonShape.Json
