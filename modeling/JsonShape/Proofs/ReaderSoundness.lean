import JsonShape.Json.Source
import JsonShape.Proofs.Lexing

/-! What is decoded is JSON.

Under the strict rules the reader has a value for no other texts than JSON texts, and it is the value that
the text spells. For every state there is a description of the texts it can go on with, and a step back
over a token keeps it.
-/

set_option autoImplicit false

namespace JsonShape.Json

/-! ## Texts of the grammar put together -/

theorem Spaces.append {before after : Text} (first : Spaces before) (second : Spaces after) :
    Spaces (before ++ after) := List.forall_mem_append.2 ⟨first, second⟩

theorem spaces_nil : Spaces [] := List.forall_mem_nil _

theorem Spells.padded {v : Value} {t before after : Text} (spelled : Spells (.element v) t)
    (blank : Spaces before) (blankAfter : Spaces after) :
    Spells (.element v) (before ++ (t ++ after)) := by
  cases spelled with
  | @element _ inner t outer isBlank spelled isBlankAfter =>
    have joined := Spells.element (blank.append isBlank) spelled (isBlankAfter.append blankAfter)
    simpa only [List.append_assoc] using joined

inductive ElementsTail : List Value → Text → Prop where
  | none {t : Text} (blank : Spaces t) : ElementsTail [] t
  | more {vs : List Value} {before later : Text} (blank : Spaces before)
      (spelled : Spells (.elements vs) later) : ElementsTail vs (separated before ',' later)

inductive MembersTail : List Member → Text → Prop where
  | none {t : Text} (blank : Spaces t) : MembersTail [] t
  | more {ms : List Member} {before later : Text} (blank : Spaces before)
      (spelled : Spells (.members ms) later) : MembersTail ms (separated before ',' later)

theorem Spells.elements_cons {v : Value} {vs : List Value} {t tail : Text}
    (spelled : Spells (.element v) t) (others : ElementsTail vs tail) :
    Spells (.elements (v :: vs)) (t ++ tail) := by
  cases others with
  | none blank => exact .lastElement (spelled.padded spaces_nil blank)
  | more blank later =>
    have joined := Spells.moreElements (spelled.padded spaces_nil blank) later
    simpa only [separated, List.nil_append, List.append_assoc] using joined

theorem Spells.members_cons {m : Member} {ms : List Member} {t tail : Text}
    (spelled : Spells (.member m) t) (others : MembersTail ms tail) :
    Spells (.members (m :: ms)) (t ++ tail) := by
  cases spelled with
  | @member name v before s between t blank named blankBetween spelled =>
    have padded {after : Text} (blankAfter : Spaces after) :
        Spells (.member (name, v)) (before ++ (s ++ separated between ':' t) ++ after) := by
      have joined := Spells.member blank named blankBetween (spelled.padded spaces_nil blankAfter)
      simpa only [separated, List.nil_append, List.cons_append, List.append_assoc] using joined
    cases others with
    | none blankAfter => exact .lastMember (padded blankAfter)
    | more blankAfter later =>
      have joined := Spells.moreMembers (padded blankAfter) later
      simpa only [separated, List.cons_append, List.append_assoc] using joined

/-! ## What completes a state -/

/-- A rest of a text that closes the containers around a value, so that the whole is the given one. -/
def Closes (whole : Value) : Value → List Frame → Text → Prop
  | v, [], t => Spaces t ∧ v = whole
  | v, .element before :: stack, t => ∃ vs tail rest, ElementsTail vs tail ∧
      t = separated tail ']' rest ∧ Closes whole (.array (before.reverse ++ v :: vs)) stack rest
  | v, .member before name :: stack, t => ∃ ms tail rest, MembersTail ms tail ∧
      t = separated tail '\x7d' rest ∧
      Closes whole (.object (ofPairs (before.reverse ++ (name, v) :: ms))) stack rest

def Continues (whole : Value) (stack : List Frame) (t : Text) : Prop :=
  ∃ v text rest, Spells (.element v) text ∧ t = text ++ rest ∧ Closes whole v stack rest

/-- A rest of a text that a state can go on with, so that the whole is the given one. -/
def Completes (whole : Value) : State → Text → Prop
  | .value stack, t => Continues whole stack t
  | .arrayStart stack, t => ∃ vs inner rest, (Spaces inner ∧ vs = [] ∨ Spells (.elements vs) inner) ∧
      t = separated inner ']' rest ∧ Closes whole (.array vs) stack rest
  | .objectStart stack, t => ∃ ms inner rest, (Spaces inner ∧ ms = [] ∨ Spells (.members ms) inner) ∧
      t = separated inner '\x7d' rest ∧ Closes whole (.object (ofPairs ms)) stack rest
  | .key before stack, t => ∃ ms inner rest, Spells (.members ms) inner ∧
      t = separated inner '\x7d' rest ∧
      Closes whole (.object (ofPairs (before.reverse ++ ms))) stack rest
  | .colon before name stack, t => ∃ between rest, Spaces between ∧ t = separated between ':' rest ∧
      Continues whole (.member before name :: stack) rest
  | .delimiter v stack, t => Closes whole v stack t

variable {whole : Value}

/-! ## Steps where a container was opened -/

theorem State.next_arrayStart {rules : Rules} {stack : List Frame} {here : Text} {token : Token}
    (goesOn : token ≠ .closeArray) :
    (State.arrayStart stack).next rules here token =
      (State.value (.element [] :: stack)).next rules here token := by
  cases token with
  | closeArray => exact absurd rfl goesOn
  | _ => rfl

theorem State.next_objectStart {rules : Rules} {stack : List Frame} {here : Text} {token : Token}
    (goesOn : token ≠ .closeObject) :
    (State.objectStart stack).next rules here token =
      (State.key [] stack).next rules here token := by
  cases token with
  | closeObject => exact absurd rfl goesOn
  | _ => rfl

/-! ## A step back

What completes the state after a token, with the token before it, completes the state before.
-/

section
variable {before text rest : Text} {token : Token} {after : State} {stack : List Frame}

theorem number_of_toNumber {n : Numeral} {number : Number} (found : n.toNumber = .ok number) :
    number = n.number := by
  rw [Numeral.toNumber] at found
  rw [Numeral.number]
  split at found
  · next integer =>
    split at found <;> cases found
    rw [if_pos integer]
  · next real => cases found; rw [if_neg real]

theorem continues_of_value {v : Value} (blank : Spaces before) (spelled : Spells (.value v) text)
    (closes : Closes whole v stack rest) : Continues whole stack (before ++ (text ++ rest)) :=
  ⟨v, before ++ (text ++ []), rest, .element blank spelled spaces_nil, by simp, closes⟩

theorem completes_of_nextValue (here : Text) (blank : Spaces before) (lexeme : Lexeme token text)
    (stepped : State.nextValue strict stack here token = .ok after)
    (completes : Completes whole after rest) : Continues whole stack (before ++ (text ++ rest)) := by
  cases lexeme with
  | fixed is =>
    cases token with
    | null => cases is; cases stepped; exact continues_of_value blank .null completes
    | bool b =>
      cases b with
      | true => cases is; cases stepped; exact continues_of_value blank .true completes
      | false => cases is; cases stepped; exact continues_of_value blank .false completes
    | openArray =>
      cases is
      rw [State.nextValue] at stepped
      split at stepped <;> cases stepped
      obtain ⟨vs, inner, rest, spelled, rfl, closes⟩ := completes
      have array : Spells (.value (.array vs)) (enclosed '[' ']' inner) := by
        rcases spelled with ⟨blank, rfl⟩ | spelled
        · exact .emptyArray blank
        · exact .array spelled
      simpa [enclosed, separated] using continues_of_value blank array closes
    | openObject =>
      cases is
      rw [State.nextValue] at stepped
      split at stepped <;> cases stepped
      obtain ⟨ms, inner, rest, spelled, rfl, closes⟩ := completes
      have object : Spells (.value (.object (ofPairs ms))) (enclosed '\x7b' '\x7d' inner) := by
        rcases spelled with ⟨blank, rfl⟩ | spelled
        · exact .emptyObject blank
        · exact .object spelled
      simpa [enclosed, separated] using continues_of_value blank object closes
    | _ => cases is <;> cases stepped
  | @numeral n _ spelled =>
    rw [State.nextValue] at stepped
    split at stepped
    · next number found =>
      cases stepped
      rw [number_of_toNumber found] at completes
      exact continues_of_value blank (.number spelled) completes
    · cases stepped
  | string spelled => cases stepped; exact continues_of_value blank (.string spelled) completes

theorem completes_of_nextKey {members : List Member} (here : Text) (blank : Spaces before)
    (lexeme : Lexeme token text) (stepped : State.nextKey members stack here token = .ok after)
    (completes : Completes whole after rest) :
    Completes whole (.key members stack) (before ++ (text ++ rest)) := by
  cases lexeme with
  | string spelled =>
    cases stepped
    obtain ⟨between, rest, blankBetween, rfl, v, text, rest, spelledValue, rfl, closes⟩ := completes
    obtain ⟨ms, tail, rest, others, rfl, outer⟩ := closes
    refine ⟨_, _, rest, .members_cons (.member blank spelled blankBetween spelledValue) others, ?_, outer⟩
    simp [separated]
  | fixed is =>
    cases token with
    | string s => cases is
    | _ => cases stepped
  | numeral spelled => cases stepped

theorem completes_of_nextDelimiter {v : Value} (here : Text) (blank : Spaces before)
    (lexeme : Lexeme token text) (stepped : State.nextDelimiter v stack here token = .ok after)
    (completes : Completes whole after rest) : Closes whole v stack (before ++ (text ++ rest)) := by
  match stack with
  | [] => cases stepped
  | .element elements :: stack =>
    cases token with
    | comma =>
      cases stepped
      cases lexeme.eq_of_fixed rfl
      obtain ⟨w, text, rest, spelled, rfl, vs, tail, rest, others, rfl, outer⟩ := completes
      refine ⟨w :: vs, _, rest, .more blank (spelled.elements_cons others), ?_, ?_⟩
      · simp [separated]
      · simpa using outer
    | closeArray =>
      cases stepped
      cases lexeme.eq_of_fixed rfl
      exact ⟨[], before, rest, .none blank, rfl, by simpa [Completes] using completes⟩
    | _ => cases stepped
  | .member members name :: stack =>
    cases token with
    | comma =>
      cases stepped
      cases lexeme.eq_of_fixed rfl
      obtain ⟨ms, inner, rest, spelled, rfl, outer⟩ := completes
      refine ⟨ms, _, rest, .more blank spelled, ?_, ?_⟩
      · simp [separated]
      · simpa using outer
    | closeObject =>
      cases stepped
      cases lexeme.eq_of_fixed rfl
      exact ⟨[], before, rest, .none blank, rfl, by simpa [Completes] using completes⟩
    | _ => cases stepped

theorem completes_of_next (here : Text) {state : State} (blank : Spaces before)
    (lexeme : Lexeme token text) (stepped : state.next strict here token = .ok after)
    (completes : Completes whole after rest) : Completes whole state (before ++ (text ++ rest)) := by
  cases state with
  | value stack => exact completes_of_nextValue here blank lexeme stepped completes
  | arrayStart stack =>
    by_cases closing : token = .closeArray
    · subst closing
      cases stepped
      cases lexeme.eq_of_fixed rfl
      exact ⟨[], before, rest, .inl ⟨blank, rfl⟩, rfl, completes⟩
    · rw [State.next_arrayStart closing] at stepped
      obtain ⟨v, text, rest, spelled, parts, vs, tail, rest, others, rfl, closes⟩ :=
        completes_of_nextValue here blank lexeme stepped completes
      refine ⟨v :: vs, text ++ tail, rest, .inr (spelled.elements_cons others), ?_, closes⟩
      simp [parts, separated]
  | objectStart stack =>
    by_cases closing : token = .closeObject
    · subst closing
      cases stepped
      cases lexeme.eq_of_fixed rfl
      exact ⟨[], before, rest, .inl ⟨blank, rfl⟩, rfl, completes⟩
    · rw [State.next_objectStart closing] at stepped
      obtain ⟨ms, inner, rest, spelled, parts, closes⟩ :=
        completes_of_nextKey here blank lexeme stepped completes
      exact ⟨ms, inner, rest, .inr spelled, parts, closes⟩
  | key members stack => exact completes_of_nextKey here blank lexeme stepped completes
  | colon members name stack =>
    cases token with
    | colon =>
      cases stepped
      cases lexeme.eq_of_fixed rfl
      exact ⟨before, rest, blank, rfl, completes⟩
    | _ => cases stepped
  | delimiter v stack => exact completes_of_nextDelimiter here blank lexeme stepped completes

end

/-- Under the strict rules no state takes a token that JSON does not have. -/
theorem sound_of_next {state after : State} {here : Text} {token : Token}
    (stepped : state.next strict here token = .ok after) : token.isFaulty = false := by
  cases state with
  | delimiter v stack =>
    cases stack with
    | nil => cases stepped
    | cons f stack => cases f <;> cases token <;> first | rfl | cases stepped
  | _ => cases token <;> first | rfl | cases stepped

theorem lexeme_of_next {state after : State} {t rest : Text} {c : CodePoint} (shape : skipSpace t = c :: rest)
    (stepped : state.next strict (c :: rest) (scan c rest).1 = .ok after) :
    ∃ before text, Spaces before ∧ Lexeme (scan c rest).1 text ∧
      t = before ++ (text ++ (scan c rest).2) := by
  obtain ⟨before, blank, parts⟩ := skipSpace_split t
  have scanned : scan c rest = ((scan c rest).1, (scan c rest).2) := rfl
  obtain ⟨text, lexeme, token⟩ := lexeme_of_scan scanned (sound_of_next stepped)
  exact ⟨before, text, blank, lexeme, by rw [← token, ← shape, ← parts]⟩

theorem completes_of_finish {state : State} {t : Text} (blank : Spaces t)
    (finished : state.finish = .ok whole) : Completes whole state t := by
  cases state with
  | delimiter v stack =>
    cases stack with
    | nil => cases finished; exact ⟨blank, rfl⟩
    | cons f stack => cases finished
  | _ => cases finished

/-- A run that has a value is over a rest that completes its state. -/
theorem completes_of_run {state : State} {t : Text} (decoded : state.run strict t = .ok whole) :
    Completes whole state t := by
  -- from the end of the run to its start: each token is put back in front of what completes the rest
  generalize isRules : strict = rules at decoded
  fun_induction State.run rules state t with
  | case1 state t ended =>
    obtain ⟨before, blank, parts⟩ := skipSpace_split t
    rw [parts, ended, List.append_nil]
    exact completes_of_finish blank decoded
  | case2 state t c rest shape after stepped ih =>
    subst isRules
    obtain ⟨before, text, blank, lexeme, parts⟩ := lexeme_of_next shape stepped
    rw [parts]
    exact completes_of_next _ blank lexeme stepped (ih decoded)
  | case3 => cases decoded

/-- A text with a value is a JSON text of this value. -/
theorem jsonText_of_decode {t : Text} (decoded : decode strict t = .ok whole) : JsonText t whole := by
  rw [decode] at decoded
  split at decoded
  · cases decoded
  · obtain ⟨v, text, rest, spelled, rfl, blank, rfl⟩ := completes_of_run decoded
    exact spelled.padded spaces_nil blank

end JsonShape.Json
