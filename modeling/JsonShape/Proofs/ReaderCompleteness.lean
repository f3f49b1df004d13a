import JsonShape.Proofs.ReaderSoundness

/-! JSON is decoded.

A text that spells a value leads the reader from the state before the value to the state after it. Only a
limit can stop the reader on its way.
-/

set_option autoImplicit false

namespace JsonShape.Json

/-! ## Runs over a JSON text -/

def Cause.isLimit : Cause → Bool
  | .tooDeep | .tooManyDigits _ => true
  | _ => false

/-- A run goes on as another one, unless a limit stops it. -/
def Leads (rules : Rules) (state : State) (t : Text) (after : State) (rest : Text) : Prop :=
  (∃ fault, state.run rules t = .error fault ∧ fault.cause.isLimit) ∨ state.run rules t = after.run rules rest

section
variable {rules : Rules} {state after last : State} {t rest later : Text}

theorem Leads.of_eq (same : state.run rules t = after.run rules rest) : Leads rules state t after rest :=
  .inr same

theorem Leads.trans (first : Leads rules state t after rest) (second : Leads rules after rest last later) :
    Leads rules state t last later := by
  rcases first with stopped | same
  · exact .inl stopped
  · rw [Leads, same]
    exact second

theorem State.run_eq (state : State) (t : Text) :
    state.run rules t =
      match skipSpace t with
      | [] => state.finish
      | c :: rest =>
        match state.next rules (c :: rest) (scan c rest).1 with
        | .ok after => after.run rules (scan c rest).2
        | .error fault => .error fault := by
  rw [State.run]
  split
  · next ended => rewrite [ended]; rfl
  · next shape => rewrite [shape]; rfl

theorem State.run_spaces {before : Text} (blank : Spaces before) (state : State) (t : Text) :
    state.run rules (before ++ t) = state.run rules t := by
  rw [run_eq, run_eq state t, skipSpace_append blank]

theorem State.run_blank (blank : Spaces t) (state : State) : state.run rules t = state.finish := by
  rw [run_eq, skipSpace_spaces blank]

theorem State.run_lexeme {token : Token} (lexeme : Lexeme token t)
    (ended : ∀ n, token = .numeral n → StartsIn valueEnds rest) (state : State) :
    state.run rules (t ++ rest) =
      match state.next rules (t ++ rest) token with
      | .ok after => after.run rules rest
      | .error fault => .error fault := by
  obtain ⟨c, tail, parts, visible, scanned⟩ := scan_lexeme lexeme ended
  rw [run_eq, parts, skipSpace_cons visible]
  simp only [scanned]

/-- A step that nothing but a limit can refuse. -/
theorem Leads.step_or {token : Token} (lexeme : Lexeme token t)
    (ended : ∀ n, token = .numeral n → StartsIn valueEnds rest)
    (stepped : ∀ here, state.next rules here token = .ok after ∨
      ∃ fault, state.next rules here token = .error fault ∧ fault.cause.isLimit) :
    Leads rules state (t ++ rest) after rest := by
  rcases stepped (t ++ rest) with goes | ⟨fault, stops, limit⟩
  · refine .of_eq ?_
    rw [State.run_lexeme lexeme ended, goes]
  · refine .inl ⟨fault, ?_, limit⟩
    rw [State.run_lexeme lexeme ended, stops]

theorem Leads.step {token : Token} (lexeme : Lexeme token t)
    (ended : ∀ n, token = .numeral n → StartsIn valueEnds rest)
    (stepped : ∀ here, state.next rules here token = .ok after) :
    Leads rules state (t ++ rest) after rest := .step_or lexeme ended fun here => .inl (stepped here)

theorem Leads.fixed {token : Token} (is : token.fixed? = some t)
    (stepped : ∀ here, state.next rules here token = .ok after) :
    Leads rules state (t ++ rest) after rest :=
  .step (.fixed is) (fun n numeral => absurd numeral (Token.ne_numeral_of_fixed is n)) stepped

theorem Leads.mark (token : Token) {mark : CodePoint} (is : token.fixed? = some [mark])
    (stepped : ∀ here, state.next rules here token = .ok after) :
    Leads rules state (mark :: rest) after rest := .fixed is stepped

theorem Leads.mark_or (token : Token) {mark : CodePoint} (is : token.fixed? = some [mark])
    (stepped : ∀ here, state.next rules here token = .ok after ∨
      ∃ fault, state.next rules here token = .error fault ∧ fault.cause.isLimit) :
    Leads rules state (mark :: rest) after rest :=
  .step_or (.fixed is) (fun n numeral => absurd numeral (Token.ne_numeral_of_fixed is n)) stepped

end

/-! ## Where the parts of a text start -/

def valueStarts : Text := [
  '"', '-', '0', '1', '2', '3', '4', '5', '6', '7', '8', '9', '[', 'f', 'n', 't', '\x7b']

theorem Spells.head {v : Value} {t : Text} (spelled : Spells (.value v) t) :
    ∃ c tail, t = c :: tail ∧ c ∈ valueStarts := by
  cases spelled with
  | number spelled =>
    rcases spelled.head with ⟨d, tail, rfl⟩ | ⟨d, tail, rfl⟩
    · have figured : ∀ d : Digit, figure d ∈ valueStarts := by decide
      exact ⟨_, _, rfl, figured d⟩
    · exact ⟨_, _, rfl, by decide⟩
  | string spelled =>
    cases spelled with
    | quoted spelled => exact ⟨_, _, rfl, by decide⟩
  | _ => exact ⟨_, _, rfl, by decide⟩

theorem not_space_of_start {c : CodePoint} (start : c ∈ valueStarts) : c ∉ spacePoints :=
  (by decide : ∀ c ∈ valueStarts, c ∉ spacePoints) c start

theorem Spells.front {v : Value} {t : Text} (spelled : Spells (.element v) t) (rest : Text) :
    ∃ c tail, skipSpace (t ++ rest) = c :: tail ∧ c ≠ ']' := by
  cases spelled with
  | @element _ _ _ after blank spelled blankAfter =>
    obtain ⟨c, tail, rfl, start⟩ := spelled.head
    refine ⟨c, tail ++ (after ++ rest), ?_, (by decide : ∀ c ∈ valueStarts, c ≠ ']') c start⟩
    rw [List.append_assoc, skipSpace_append blank, List.append_assoc, List.cons_append,
      skipSpace_cons (not_space_of_start start)]

theorem Spells.front_elements {vs : List Value} {t : Text} (spelled : Spells (.elements vs) t)
    (rest : Text) : ∃ c tail, skipSpace (t ++ rest) = c :: tail ∧ c ≠ ']' := by
  cases spelled with
  | lastElement spelled => exact spelled.front rest
  | moreElements spelled others =>
    rw [separated, List.append_assoc]
    exact spelled.front _

theorem Spells.front_member {m : Member} {t : Text} (spelled : Spells (.member m) t) (rest : Text) :
    ∃ c tail, skipSpace (t ++ rest) = c :: tail ∧ c ≠ '\x7d' := by
  cases spelled with
  | @member _ _ _ _ between t blank named blankBetween spelled =>
    cases named with
    | @quoted _ inner pieces =>
      refine ⟨'"', separated inner '"' (separated between ':' t) ++ rest, ?_, by decide⟩
      rw [List.append_assoc, skipSpace_append blank]
      have quote : CodePoint.ofChar '"' ∉ spacePoints := by decide
      simpa [enclosed, separated] using skipSpace_cons quote

theorem Spells.front_members {ms : List Member} {t : Text} (spelled : Spells (.members ms) t)
    (rest : Text) : ∃ c tail, skipSpace (t ++ rest) = c :: tail ∧ c ≠ '\x7d' := by
  cases spelled with
  | lastMember spelled => exact spelled.front_member rest
  | moreMembers spelled others =>
    rw [separated, List.append_assoc]
    exact spelled.front_member _

theorem scan_closeArray {c : CodePoint} {t : Text} (scanned : (scan c t).1 = .closeArray) : c = ']' := by
  obtain ⟨text, lexeme, parts⟩ := lexeme_of_scan (Prod.ext scanned rfl) rfl
  cases lexeme with
  | fixed is => cases is; cases parts; rfl

theorem scan_closeObject {c : CodePoint} {t : Text} (scanned : (scan c t).1 = .closeObject) :
    c = '\x7d' := by
  obtain ⟨text, lexeme, parts⟩ := lexeme_of_scan (Prod.ext scanned rfl) rfl
  cases lexeme with
  | fixed is => cases is; cases parts; rfl

/-- An array that does not end where it starts is read like one with elements before. -/
theorem State.run_arrayStart {rules : Rules} {stack : List Frame} {t : Text}
    (front : ∃ c tail, skipSpace t = c :: tail ∧ c ≠ ']') :
    (State.arrayStart stack).run rules t = (State.value (.element [] :: stack)).run rules t := by
  obtain ⟨c, tail, shape, goesOn⟩ := front
  rw [run_eq, run_eq, shape]
  simp only [next_arrayStart fun closing => goesOn (scan_closeArray closing)]

theorem State.run_objectStart {rules : Rules} {stack : List Frame} {t : Text}
    (front : ∃ c tail, skipSpace t = c :: tail ∧ c ≠ '\x7d') :
    (State.objectStart stack).run rules t = (State.key [] stack).run rules t := by
  obtain ⟨c, tail, shape, goesOn⟩ := front
  rw [run_eq, run_eq, shape]
  simp only [next_objectStart fun closing => goesOn (scan_closeObject closing)]

/-! ## A JSON text is decoded -/

/-- What reading a phrase comes to where it may stand. -/
def Phrase.Read (rules : Rules) (t : Text) : Phrase → Prop
  | .value v | .element v => ∀ stack rest, StartsIn valueEnds rest →
      Leads rules (.value stack) (t ++ rest) (.delimiter v stack) rest
  | .elements vs => ∀ before stack rest,
      Leads rules (.value (.element before :: stack)) (separated t ']' rest)
        (.delimiter (.array (before.reverse ++ vs)) stack) rest
  | .member (name, v) => ∀ before stack rest, StartsIn valueEnds rest →
      Leads rules (.key before stack) (t ++ rest) (.delimiter v (.member before name :: stack)) rest
  | .members ms => ∀ before stack rest,
      Leads rules (.key before stack) (separated t '\x7d' rest)
        (.delimiter (.object (ofPairs (before.reverse ++ ms))) stack) rest

section
variable {rules : Rules} {t : Text}

theorem read_fixed (token : Token) {v : Value} (is : token.fixed? = some t)
    (stepped : ∀ stack here, State.nextValue rules stack here token = .ok (.delimiter v stack)) :
    (Phrase.value v).Read rules t := fun stack _ _ => .fixed is (stepped stack)

theorem read_numeral {n : Numeral} (spelled : SpellsNumeral n t) :
    (Phrase.value (.number n.number)).Read rules t := by
  intro stack rest ended
  refine .step_or (.numeral spelled) (fun _ _ => ended) fun here => ?_
  rw [State.next, State.nextValue]
  cases converted : n.toNumber with
  | ok number => exact .inl (by rw [number_of_toNumber converted])
  | error cause =>
    refine .inr ⟨_, rfl, ?_⟩
    rw [Numeral.toNumber] at converted
    split at converted
    · split at converted <;> cases converted
      rfl
    · cases converted

theorem read_string {s : Text} (spelled : SpellsString s t) : (Phrase.value (.string s)).Read rules t :=
  fun _ _ _ => .step (.string spelled) (fun _ numeral => by cases numeral) fun _ => rfl

theorem leads_openArray (stack : List Frame) (rest : Text) :
    Leads rules (.value stack) ('[' :: rest) (.arrayStart stack) rest := by
  refine .mark_or .openArray rfl fun here => ?_
  rw [State.next, State.nextValue]
  split
  · exact .inl rfl
  · exact .inr ⟨_, rfl, rfl⟩

theorem leads_openObject (stack : List Frame) (rest : Text) :
    Leads rules (.value stack) ('\x7b' :: rest) (.objectStart stack) rest := by
  refine .mark_or .openObject rfl fun here => ?_
  rw [State.next, State.nextValue]
  split
  · exact .inl rfl
  · exact .inr ⟨_, rfl, rfl⟩

theorem leads_closeArray (before : List Value) (v : Value) (stack : List Frame) (rest : Text) :
    Leads rules (.delimiter v (.element before :: stack)) (']' :: rest)
      (.delimiter (.array (before.reverse ++ [v])) stack) rest :=
  .mark .closeArray rfl fun _ => by rw [← List.reverse_cons]; rfl

theorem leads_closeObject (before : List Member) (name : Text) (v : Value) (stack : List Frame)
    (rest : Text) :
    Leads rules (.delimiter v (.member before name :: stack)) ('\x7d' :: rest)
      (.delimiter (.object (ofPairs (before.reverse ++ [(name, v)]))) stack) rest :=
  .mark .closeObject rfl fun _ => by rw [← List.reverse_cons]; rfl

theorem leads_nextElement (before : List Value) (v : Value) (stack : List Frame) (rest : Text) :
    Leads rules (.delimiter v (.element before :: stack)) (',' :: rest)
      (.value (.element (v :: before) :: stack)) rest :=
  .mark .comma rfl fun _ => rfl

theorem leads_nextMember (before : List Member) (name : Text) (v : Value) (stack : List Frame)
    (rest : Text) :
    Leads rules (.delimiter v (.member before name :: stack)) (',' :: rest)
      (.key ((name, v) :: before) stack) rest :=
  .mark .comma rfl fun _ => rfl

theorem startsIn_spaces {before rest : Text} (blank : Spaces before) (ended : StartsIn valueEnds rest) :
    StartsIn valueEnds (before ++ rest) := by
  cases before with
  | nil => exact ended
  | cons c before =>
    intro d head
    cases head
    have within : spacePoints ⊆ valueEnds := by decide
    exact within (blank c List.mem_cons_self)

theorem read_emptyArray (blank : Spaces t) : (Phrase.value (.array [])).Read rules (enclosed '[' ']' t) := by
  intro stack rest ended
  have closing : Leads rules (.arrayStart stack) (']' :: rest) (.delimiter (.array []) stack) rest :=
    .mark .closeArray rfl fun _ => rfl
  rw [enclosed, List.cons_append, List.append_assoc, List.singleton_append]
  exact (leads_openArray stack _).trans (.trans (.of_eq (State.run_spaces blank _ _)) closing)

theorem read_array {vs : List Value} (spelled : Spells (.elements vs) t)
    (read : (Phrase.elements vs).Read rules t) :
    (Phrase.value (.array vs)).Read rules (enclosed '[' ']' t) := by
  intro stack rest ended
  rw [enclosed, List.cons_append, List.append_assoc, List.singleton_append]
  exact (leads_openArray stack _).trans <|
    .trans (.of_eq (State.run_arrayStart (spelled.front_elements _))) (read [] stack rest)

theorem read_emptyObject (blank : Spaces t) :
    (Phrase.value (.object [])).Read rules (enclosed '\x7b' '\x7d' t) := by
  intro stack rest ended
  have closing :
      Leads rules (.objectStart stack) ('\x7d' :: rest) (.delimiter (.object []) stack) rest :=
    .mark .closeObject rfl fun _ => rfl
  rw [enclosed, List.cons_append, List.append_assoc, List.singleton_append]
  exact (leads_openObject stack _).trans (.trans (.of_eq (State.run_spaces blank _ _)) closing)

theorem read_object {ms : List Member} (spelled : Spells (.members ms) t)
    (read : (Phrase.members ms).Read rules t) :
    (Phrase.value (.object (ofPairs ms))).Read rules (enclosed '\x7b' '\x7d' t) := by
  intro stack rest ended
  rw [enclosed, List.cons_append, List.append_assoc, List.singleton_append]
  exact (leads_openObject stack _).trans <|
    .trans (.of_eq (State.run_objectStart (spelled.front_members _))) (read [] stack rest)

theorem read_element {v : Value} {before after : Text} (blank : Spaces before)
    (read : (Phrase.value v).Read rules t) (blankAfter : Spaces after) :
    (Phrase.element v).Read rules (before ++ (t ++ after)) := by
  intro stack rest ended
  rw [List.append_assoc, List.append_assoc]
  exact .trans (.of_eq (State.run_spaces blank _ _)) <|
    .trans (read stack _ (startsIn_spaces blankAfter ended)) (.of_eq (State.run_spaces blankAfter _ _))

theorem read_lastElement {v : Value} (read : (Phrase.element v).Read rules t) :
    (Phrase.elements [v]).Read rules t := fun before stack rest =>
  .trans (read _ _ (startsIn_cons (by decide) _)) (leads_closeArray before v stack rest)

theorem read_moreElements {v : Value} {vs : List Value} {later : Text}
    (first : (Phrase.element v).Read rules t) (others : (Phrase.elements vs).Read rules later) :
    (Phrase.elements (v :: vs)).Read rules (separated t ',' later) := by
  intro before stack rest
  have going := others (v :: before) stack rest
  rw [List.reverse_cons, List.append_assoc, List.singleton_append] at going
  rw [separated, separated, List.append_assoc, List.cons_append]
  exact .trans (first _ _ (startsIn_cons (by decide) _))
    ((leads_nextElement before v stack _).trans going)

theorem read_member {name s before between : Text} {v : Value} (blank : Spaces before)
    (named : SpellsString name s) (blankBetween : Spaces between)
    (read : (Phrase.element v).Read rules t) :
    (Phrase.member (name, v)).Read rules (before ++ (s ++ separated between ':' t)) := by
  intro members stack rest ended
  have key : Leads rules (.key members stack) (s ++ separated between ':' (t ++ rest))
      (.colon members name stack) (separated between ':' (t ++ rest)) :=
    .step (.string named) (fun _ numeral => by cases numeral) fun _ => rfl
  have colon : Leads rules (.colon members name stack) (':' :: (t ++ rest))
      (.value (.member members name :: stack)) (t ++ rest) := .mark .colon rfl fun _ => rfl
  rw [List.append_assoc, List.append_assoc, separated, List.append_assoc, List.cons_append, ← separated]
  exact .trans (.of_eq (State.run_spaces blank _ _)) <| key.trans <|
    .trans (.of_eq (State.run_spaces blankBetween _ _)) <| colon.trans (read _ rest ended)

theorem read_lastMember {m : Member} (read : (Phrase.member m).Read rules t) :
    (Phrase.members [m]).Read rules t := fun before stack rest =>
  .trans (read before stack _ (startsIn_cons (by decide) _))
    (leads_closeObject before m.1 m.2 stack rest)

theorem read_moreMembers {m : Member} {ms : List Member} {later : Text}
    (first : (Phrase.member m).Read rules t) (others : (Phrase.members ms).Read rules later) :
    (Phrase.members (m :: ms)).Read rules (separated t ',' later) := by
  intro before stack rest
  have going := others (m :: before) stack rest
  rw [List.reverse_cons, List.append_assoc, List.singleton_append] at going
  rw [separated, separated, List.append_assoc, List.cons_append]
  exact .trans (first before stack _ (startsIn_cons (by decide) _))
    ((leads_nextMember before m.1 m.2 stack _).trans going)

/-- Every phrase is read, by induction on how it is spelled. -/
theorem Spells.read {phrase : Phrase} (spelled : Spells phrase t) : phrase.Read rules t := by
  induction spelled with
  | null => exact read_fixed .null rfl fun _ _ => rfl
  | true => exact read_fixed (.bool Bool.true) rfl fun _ _ => rfl
  | false => exact read_fixed (.bool Bool.false) rfl fun _ _ => rfl
  | number spelled => exact read_numeral spelled
  | string spelled => exact read_string spelled
  | emptyArray blank => exact read_emptyArray blank
  | array spelled ih => exact read_array spelled ih
  | emptyObject blank => exact read_emptyObject blank
  | object spelled ih => exact read_object spelled ih
  | element blank spelled blankAfter ih => exact read_element blank ih blankAfter
  | lastElement spelled ih => exact read_lastElement ih
  | moreElements spelled others ih later => exact read_moreElements ih later
  | member blank named blankBetween spelled ih => exact read_member blank named blankBetween ih
  | lastMember spelled ih => exact read_lastMember ih
  | moreMembers spelled others ih later => exact read_moreMembers ih later

theorem JsonText.start {v : Value} (json : JsonText t v) :
    ∃ before c rest, t = before ++ c :: rest ∧ Spaces before ∧ c ∈ valueStarts := by
  cases json with
  | element blank spelled blankAfter =>
    obtain ⟨c, tail, rfl, start⟩ := spelled.head
    exact ⟨_, c, _, rfl, blank, start⟩

theorem JsonText.no_mark {v : Value} (json : JsonText t v) : t.head? ≠ some ⟨0xFEFF, by decide⟩ := by
  obtain ⟨before, c, rest, rfl, blank, start⟩ := json.start
  intro mark
  have listed : (⟨0xFEFF, by decide⟩ : CodePoint) ∈ spacePoints ++ valueStarts := by
    cases before with
    | nil => exact List.mem_append_right _ (Option.some.inj mark ▸ start)
    | cons d before =>
      exact List.mem_append_left _ (Option.some.inj mark ▸ blank d List.mem_cons_self)
  revert listed
  decide

theorem decode_of_jsonText {v : Value} (json : JsonText t v) :
    (∃ fault, decode rules t = .error fault ∧ fault.cause.isLimit) ∨ decode rules t = .ok v := by
  have read : Leads rules (.value []) (t ++ []) (.delimiter v []) [] :=
    json.read [] [] (by rintro c ⟨⟩)
  rw [List.append_nil] at read
  rw [decode, if_neg json.no_mark]
  rwa [Leads, State.run_blank spaces_nil] at read

end

end JsonShape.Json
