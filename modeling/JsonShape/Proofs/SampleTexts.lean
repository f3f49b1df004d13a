import JsonShape.Proofs.DistinctKeys
import JsonShape.Proofs.Outcome

/-! What reading a sample says about its text.

A sample within the limits is judged by the grammar alone. The note of success stands for a JSON text and
the value is the one that the text spells; any other text leaves no value and one error, unless it is
blank. What the grammar denotes is told apart from any reader too: an object settles its members, and
two surrogates escaped next to each other make one code point.
-/

set_option autoImplicit false

namespace JsonShape

theorem Diagnostic.message_eq_parsed {d : Diagnostic} :
    d.message = "JSON parsed successfully." ↔ d.finding = .parsed := by
  obtain ⟨finding, path⟩ := d
  constructor
  · intro same
    -- messages of errors share the first word with it and differ in the third
    have start : (Diagnostic.message ⟨finding, path⟩)[0]? = some (CodePoint.ofChar 'J') := by
      rw [same]
      rfl
    have third : (Diagnostic.message ⟨finding, path⟩)[10]? = some (CodePoint.ofChar 'd') := by
      rw [same]
      rfl
    cases finding with
    | parsed => rfl
    | syntaxError => cases third
    | tooDeep => cases third
    | _ => cases start
  · rintro ⟨⟩
    rfl

namespace Json

variable {t : Text} {v : Value} {sample : Sample}

/-! ## The members of an object -/

/-- How the members of an object settle the pairs that are written in it: each key at its first place, with
its last value. -/
structure Settles (pairs members : List Member) : Prop where
  keys : members.map (·.1) = (pairs.map (·.1)).eraseDups
  values (key : Text) : lookup? members key = lookup? pairs.reverse key

theorem lookup?_cons (m : Member) (rest : List Member) (key : Text) :
    lookup? (m :: rest) key = if key = m.1 then some m.2 else lookup? rest key := by
  rw [lookup?, List.lookup_cons]
  by_cases same : key = m.1
  · rw [if_pos same, beq_iff_eq.2 same]
  · rw [if_neg same, beq_false_of_ne same, lookup?]

theorem lookup?_append_singleton (members : List Member) (m : Member) (key : Text) :
    lookup? (members ++ [m]) key =
      (lookup? members key).or (if key = m.1 then some m.2 else none) := by
  rw [lookup?, List.lookup_append, ← lookup?, ← lookup?, lookup?_cons]
  rfl

theorem lookup?_eq_none {members : List Member} {key : Text} (unknown : key ∉ members.map (·.1)) :
    lookup? members key = none := by
  induction members with
  | nil => rfl
  | cons m rest ih =>
    rw [List.map_cons, List.mem_cons, not_or] at unknown
    rw [lookup?_cons, if_neg unknown.1, ih unknown.2]

theorem lookup?_set {members : List Member} {key : Text} {value : Value}
    (known : key ∈ members.map (·.1)) :
    lookup? (members.map fun m => if m.1 = key then (key, value) else m) key = some value := by
  induction members with
  | nil => cases known
  | cons m rest ih =>
    rw [List.map_cons, lookup?_cons]
    by_cases here : m.1 = key
    · rw [if_pos here, if_pos rfl]
    · rw [if_neg here, if_neg (Ne.symm here)]
      exact ih ((List.mem_cons.1 known).resolve_left (Ne.symm here))

theorem lookup?_set_other {members : List Member} {key other : Text} {value : Value}
    (different : other ≠ key) :
    lookup? (members.map fun m => if m.1 = key then (key, value) else m) other =
      lookup? members other := by
  induction members with
  | nil => rfl
  | cons m rest ih =>
    rw [List.map_cons, lookup?_cons, lookup?_cons, ih]
    by_cases here : m.1 = key
    · rw [if_pos here, if_neg different, if_neg (here ▸ different)]
    · rw [if_neg here]

theorem lookup?_put (members : List Member) (key : Text) (value : Value) (other : Text) :
    lookup? (put members key value) other =
      if other = key then some value else lookup? members other := by
  have listed : members.any (·.1 = key) = true ↔ key ∈ members.map (·.1) := by
    simp [List.any_eq_true]
  rw [put]
  by_cases same : other = key
  · rw [if_pos same, same]
    split
    · next known => exact lookup?_set (listed.1 known)
    · next unknown =>
      rw [lookup?_append_singleton, lookup?_eq_none (listed.not.1 unknown), if_pos rfl, Option.none_or]
  · rw [if_neg same]
    split
    · exact lookup?_set_other same
    · rw [lookup?_append_singleton, if_neg same, Option.or_none]

theorem settles_ofPairs (pairs : List Member) : Settles pairs (ofPairs pairs) := by
  -- the last pair is set after all others, so the induction takes pairs off the end
  induction pairs using List.reverseRecOn with
  | nil => exact ⟨rfl, fun _ => rfl⟩
  | append_singleton pairs m ih =>
    have last : ofPairs (pairs ++ [m]) = put (ofPairs pairs) m.1 m.2 := by
      rw [ofPairs, List.foldl_append]
      rfl
    constructor
    · rw [last, keys_put, ih.keys, List.map_append, List.eraseDups_append, List.map_singleton]
      split
      · next known =>
        rw [List.removeAll, List.filter_cons_of_neg (by simpa using known)]
        exact (List.append_nil _).symm
      · next unknown =>
        rw [List.removeAll, List.filter_cons_of_pos (by simpa using unknown)]
        rfl
    · intro key
      rw [last, lookup?_put, ih.values, List.reverse_append, List.reverse_singleton,
        List.singleton_append, lookup?_cons]

/-! ## The value of a text -/

structure Judges (t : Text) (sample : Sample) : Prop where
  parsed : (∃ d ∈ sample.diagnostics, d.message = "JSON parsed successfully.") ↔ ∃ v, JsonText t v
  value (v : Value) : sample.value = some v ↔ JsonText t v
  faultless (v : Value) (json : JsonText t v) : sample.diagnostics.countP Diagnostic.isError = 0
  faulty (visible : t.isBlank = false) (other : ∀ v, ¬ JsonText t v) :
    sample.value = none ∧ sample.diagnostics.countP Diagnostic.isError = 1
  blank (blank : t.isBlank) : sample.value = none ∧ sample.diagnostics = []

theorem not_parsed_of_sizeWarning {d : Diagnostic} (member : d ∈ sizeWarning t) :
    d.finding ≠ .parsed := by
  rw [finding_of_sizeWarning member]
  exact Finding.noConfusion

theorem Reading.parsed (reading : Reading t sample) :
    (∃ d ∈ sample.diagnostics, d.message = "JSON parsed successfully.") ↔ ∃ v, JsonText t v := by
  simp only [Diagnostic.message_eq_parsed]
  cases reading with
  | blank blank other =>
    refine iff_of_false ?_ fun ⟨v, json⟩ => other v json
    rintro ⟨d, member, _⟩
    cases member
  | value visible json only =>
    exact iff_of_true ⟨_, List.mem_append_right _ List.mem_cons_self, rfl⟩ ⟨_, json⟩
  | fault visible other stopped =>
    refine iff_of_false ?_ fun ⟨v, json⟩ => other v json
    rintro ⟨d, member, parsed⟩
    rcases List.mem_append.1 member with warning | note
    · exact not_parsed_of_sizeWarning warning parsed
    · rw [List.mem_singleton.1 note] at parsed
      cases parsed

theorem Reading.value_eq_some (reading : Reading t sample) :
    sample.value = some v ↔ JsonText t v := by
  cases reading with
  | blank blank other => exact iff_of_false nofun (other v)
  | value visible json only =>
    rw [Option.some.injEq]
    exact ⟨fun same => same ▸ json, fun other => (only v other).symm⟩
  | fault visible other stopped => exact iff_of_false nofun (other v)

theorem Reading.judges (reading : Reading t sample) : Judges t sample where
  parsed := reading.parsed
  value _ := reading.value_eq_some
  faultless _ := Conversion.sampleErrors_of_json reading
  faulty visible other :=
    ⟨Option.eq_none_iff_forall_ne_some.2 fun v found => other v (reading.value_eq_some.1 found),
      Conversion.sampleErrors_of_fault reading visible other⟩
  blank blank := by
    cases reading with
    | blank _ other => exact ⟨rfl, rfl⟩
    | value visible json only => cases visible.symm.trans blank
    | fault visible other stopped => cases visible.symm.trans blank

theorem val_joinSurrogates {high low : CodePoint} (isHigh : high.isHighSurrogate)
    (isLow : low.isLowSurrogate) :
    (CodePoint.joinSurrogates high low).val =
      0x10000 + (high.val - 0xD800) * 0x400 + (low.val - 0xDC00) := by
  rw [CodePoint.isHighSurrogate, Bool.and_eq_true, decide_eq_true_eq, decide_eq_true_eq] at isHigh
  rw [CodePoint.isLowSurrogate, Bool.and_eq_true, decide_eq_true_eq, decide_eq_true_eq] at isLow
  rw [CodePoint.joinSurrogates, CodePoint.ofNat, dif_pos (by omega)]

/-- Reading a text of scalars within the limits is judged by the grammar. The grammar settles repeated keys and joins
surrogates that are escaped next to each other. -/
theorem read_judges (within : WithinLimits 850 t) (encodable : t.isEncodable) :
    (∃ sample, read t = .ok sample ∧ Judges t sample) ∧
      (∀ pairs, Settles pairs (ofPairs pairs)) ∧
      ∀ (high low : CodePoint) (rest : List Piece), high.isHighSurrogate → low.isLowSurrogate →
        ∃ c, joinPieces (.numbered high :: .numbered low :: rest) = c :: joinPieces rest ∧
          c.val = 0x10000 + (high.val - 0xD800) * 0x400 + (low.val - 0xDC00) := by
  refine ⟨?_, settles_ofPairs, fun high low rest isHigh isLow => ?_⟩
  · obtain ⟨sample, read, reading⟩ := reading (within.mono (by decide)) encodable
    exact ⟨sample, read, reading.judges⟩
  · exact ⟨_, joinPieces_pair isHigh isLow, val_joinSurrogates isHigh isLow⟩

def repeatedKey : Text := "\x7b\"a\": 1, \"b\": [], \"a\": \"\\ud83d\\ude00\"\x7d"

theorem read_judges_repeatedKey :
    WithinLimits 850 repeatedKey ∧ repeatedKey.isEncodable ∧
      ∃ sample, read repeatedKey = .ok sample ∧ Judges repeatedKey sample := by
  have lexed : tokens repeatedKey = [
      .openObject, .string "a", .colon, .numeral ⟨false, [1], [], false, []⟩, .comma,
      .string "b", .colon, .openArray, .closeArray, .comma,
      .string "a", .colon, .string [⟨0x1F600, by decide⟩], .closeObject] := by cbv
  have within : WithinLimits 850 repeatedKey := by
    constructor
    · rw [lexed]
      decide
    · rw [lexed]
      simp [maxDigits]
  have encodable : repeatedKey.isEncodable := by decide
  exact ⟨within, encodable, (read_judges within encodable).1⟩

end Json

end JsonShape
