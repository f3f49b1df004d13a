import JsonShape.Proofs.ReaderCompleteness

/-! The limits of the reader.

How many brackets are open at once and how long an integer is can be told from the tokens alone. A reader
with higher limits is never stopped by them, so that it decodes exactly the JSON texts.
-/

set_option autoImplicit false

namespace JsonShape.Json

theorem scan_shorter {t rest : Text} {c : CodePoint} (shape : skipSpace t = c :: rest) :
    (scan c rest).2.length < t.length := by
  have shorter := scan_length_le c rest
  have skipped := length_dropWhile_le isSpace t
  rw [← skipSpace, shape, List.length_cons] at skipped
  omega

def tokens (t : Text) : List Token :=
  match _shape : skipSpace t with
  | [] => []
  | c :: rest => (scan c rest).1 :: tokens (scan c rest).2
termination_by t.length
decreasing_by exact scan_shorter _shape

def Token.depth (opened : Nat) : Token → Nat
  | .openArray | .openObject => opened + 1
  | .closeArray | .closeObject => opened - 1
  | _ => opened

def deepest (opened : Nat) : List Token → Nat
  | [] => opened
  | token :: rest => max opened (deepest (token.depth opened) rest)

/-- Never more brackets are open at once than given, where brackets in string literals are none, and no
integer is too long to be read. -/
structure WithinLimits (depth : Nat) (t : Text) : Prop where
  shallow : deepest 0 (tokens t) ≤ depth
  short : ∀ n, .numeral n ∈ tokens t → n.isInteger → n.whole.length ≤ maxDigits

/-! ## Kinds of faults -/

def Cause.isMisplaced : Cause → Bool
  | .expectingValue | .expectingName | .expectingColon | .expectingComma | .extraData => true
  | _ => false

theorem not_limit_of_inLiteral {cause : Cause} (literal : cause.inLiteral) : cause.isLimit = false := by
  cases cause <;> first | rfl | cases literal

theorem not_limit_of_misplaced {cause : Cause} (misplaced : cause.isMisplaced) : cause.isLimit = false := by
  cases cause <;> first | rfl | cases misplaced

/-! ## Open containers -/

def State.opened : State → Nat
  | .value stack | .delimiter _ stack => stack.length
  | .arrayStart stack | .objectStart stack | .key _ stack | .colon _ _ stack => stack.length + 1

theorem opened_of_nextValue {rules : Rules} {stack : List Frame} {here : Text} {token : Token}
    {after : State} (stepped : State.nextValue rules stack here token = .ok after) :
    after.opened = token.depth stack.length := by
  cases token with
  | numeral n => rw [State.nextValue] at stepped; split at stepped <;> cases stepped; rfl
  | constant c => rw [State.nextValue] at stepped; split at stepped <;> cases stepped; rfl
  | openArray => rw [State.nextValue] at stepped; split at stepped <;> cases stepped; rfl
  | openObject => rw [State.nextValue] at stepped; split at stepped <;> cases stepped; rfl
  | _ => cases stepped <;> rfl

theorem opened_of_nextKey {before : List Member} {stack : List Frame} {here : Text} {token : Token}
    {after : State} (stepped : State.nextKey before stack here token = .ok after) :
    after.opened = token.depth (stack.length + 1) := by
  cases token <;> cases stepped
  rfl

/-- A step counts the brackets like its token. -/
theorem opened_of_next {rules : Rules} {state after : State} {here : Text} {token : Token}
    (stepped : state.next rules here token = .ok after) : after.opened = token.depth state.opened := by
  cases state with
  | value stack => exact opened_of_nextValue stepped
  | arrayStart stack =>
    by_cases closing : token = .closeArray
    · rw [closing] at stepped ⊢
      cases stepped
      rfl
    · rw [State.next_arrayStart closing] at stepped
      exact opened_of_nextValue stepped
  | objectStart stack =>
    by_cases closing : token = .closeObject
    · rw [closing] at stepped ⊢
      cases stepped
      rfl
    · rw [State.next_objectStart closing] at stepped
      exact opened_of_nextKey stepped
  | key before stack => exact opened_of_nextKey stepped
  | colon before name stack => cases token <;> cases stepped; rfl
  | delimiter v stack =>
    cases stack with
    | nil => cases stepped
    | cons f stack => cases f <;> cases token <;> cases stepped <;> rfl

/-! ## Steps that stop -/

/-- How a step stops at a token: the token breaks off, it does not belong here, or it is refused. -/
inductive Token.Stops (rules : Rules) (opened : Nat) (here : Text) : Token → Fault → Prop where
  | broken (fault : Fault) : Stops rules opened here (.broken fault) fault
  | misplaced {token : Token} {cause : Cause} (misplaced : cause.isMisplaced) :
      Stops rules opened here token ⟨cause, here⟩
  | deepArray (deep : rules.maxDepth ≤ opened) : Stops rules opened here .openArray ⟨.tooDeep, here⟩
  | deepObject (deep : rules.maxDepth ≤ opened) : Stops rules opened here .openObject ⟨.tooDeep, here⟩
  | long {n : Numeral} (integer : n.isInteger) (long : maxDigits < n.whole.length) :
      Stops rules opened here (.numeral n) ⟨.tooManyDigits n.whole.length, here⟩
  | constant {c : Constant} (refused : rules.acceptsConstants = false) :
      Stops rules opened here (.constant c) ⟨.constant c, here⟩

theorem stops_of_nextValue {rules : Rules} {stack : List Frame} {here : Text} {token : Token}
    {fault : Fault} (stopped : State.nextValue rules stack here token = .error fault) :
    token.Stops rules stack.length here fault := by
  cases token with
  | numeral n =>
    rw [State.nextValue, Numeral.toNumber] at stopped
    split at stopped <;> cases stopped
    next refused =>
    split at refused
    · next integer => split at refused <;> cases refused; exact .long integer ‹_›
    · cases refused
  | constant c =>
    rw [State.nextValue] at stopped
    split at stopped <;> cases stopped
    next refused => exact .constant (Bool.eq_false_iff.2 refused)
  | openArray =>
    rw [State.nextValue] at stopped
    split at stopped <;> cases stopped
    next deep => exact .deepArray (Nat.le_of_not_lt deep)
  | openObject =>
    rw [State.nextValue] at stopped
    split at stopped <;> cases stopped
    next deep => exact .deepObject (Nat.le_of_not_lt deep)
  | broken fault => cases stopped; exact .broken fault
  | _ => cases stopped <;> exact .misplaced rfl

theorem stops_of_nextKey {rules : Rules} {before : List Member} {stack : List Frame} {here : Text}
    {token : Token} {fault : Fault} (opened : Nat)
    (stopped : State.nextKey before stack here token = .error fault) :
    token.Stops rules opened here fault := by
  cases token with
  | broken fault => cases stopped; exact .broken fault
  | _ => cases stopped <;> exact .misplaced rfl

theorem stops_of_next {rules : Rules} {state : State} {here : Text} {token : Token} {fault : Fault}
    (stopped : state.next rules here token = .error fault) :
    token.Stops rules state.opened here fault := by
  cases state with
  | value stack => exact stops_of_nextValue stopped
  | arrayStart stack =>
    by_cases closing : token = .closeArray
    · rw [closing] at stopped
      cases stopped
    · rw [State.next_arrayStart closing] at stopped
      exact stops_of_nextValue stopped
  | objectStart stack =>
    by_cases closing : token = .closeObject
    · rw [closing] at stopped
      cases stopped
    · rw [State.next_objectStart closing] at stopped
      exact stops_of_nextKey _ stopped
  | key before stack => exact stops_of_nextKey _ stopped
  | colon before name stack => cases token <;> cases stopped <;> exact .misplaced rfl
  | delimiter v stack =>
    cases stack with
    | nil => cases stopped; exact .misplaced rfl
    | cons f stack => cases f <;> cases token <;> cases stopped <;> exact .misplaced rfl

theorem finish_fault {state : State} {fault : Fault} (stopped : state.finish = .error fault) :
    fault.cause.isMisplaced := by
  cases state with
  | delimiter v stack => cases stack <;> cases stopped; rfl
  | _ => cases stopped; rfl

/-! ## Tokens beyond the limits -/

def Token.Exceeds (rules : Rules) (opened : Nat) : Token → Prop
  | .openArray | .openObject => rules.maxDepth ≤ opened
  | .numeral n => n.isInteger ∧ maxDigits < n.whole.length
  | _ => False

/-- A limit stops a reader only at a token that goes beyond it. -/
theorem exceeds_of_next {rules : Rules} {state : State} {c : CodePoint} {rest : Text} {fault : Fault}
    (stopped : state.next rules (c :: rest) (scan c rest).1 = .error fault) (limit : fault.cause.isLimit) :
    (scan c rest).1.Exceeds rules state.opened := by
  have stops := stops_of_next stopped
  have begins := begins_of_scan c rest
  generalize (scan c rest).1 = token at stops begins
  cases stops with
  | broken fault => cases limit.symm.trans (not_limit_of_inLiteral begins.inLiteral)
  | misplaced misplaced => cases limit.symm.trans (not_limit_of_misplaced misplaced)
  | deepArray deep | deepObject deep => exact deep
  | long integer long => exact ⟨integer, long⟩
  | constant => cases limit

theorem tokens_cons {t rest : Text} {c : CodePoint} (shape : skipSpace t = c :: rest) :
    tokens t = (scan c rest).1 :: tokens (scan c rest).2 := by
  rw [tokens]
  split
  · next ended => cases ended.symm.trans shape
  · next same => cases same.symm.trans shape; rfl

theorem le_deepest (opened : Nat) (rest : List Token) : opened ≤ deepest opened rest := by
  cases rest with
  | nil => exact Nat.le_refl _
  | cons token rest => exact Nat.le_max_left _ _

theorem not_exceeds {rules : Rules} {opened : Nat} {c : CodePoint} {rest : Text} {later : List Token}
    (shallow : deepest opened ((scan c rest).1 :: later) ≤ rules.maxDepth)
    (short : ∀ n, (scan c rest).1 = .numeral n → n.isInteger → n.whole.length ≤ maxDigits) :
    ¬ (scan c rest).1.Exceeds rules opened := by
  have bound := Nat.le_trans (Nat.le_trans (le_deepest _ later) (Nat.le_max_right _ _)) shallow
  cases token : (scan c rest).1 with
  | openArray | openObject => rw [token] at bound; exact Nat.not_le_of_lt bound
  | numeral n => exact fun exceeds => Nat.not_le_of_lt exceeds.2 (short n token exceeds.1)
  | _ => exact id

/-- No run over tokens within the limits is stopped by one of them. -/
theorem isLimit_run {rules : Rules} {state : State} {t : Text} {fault : Fault}
    (shallow : deepest state.opened (tokens t) ≤ rules.maxDepth)
    (short : ∀ n, .numeral n ∈ tokens t → n.isInteger → n.whole.length ≤ maxDigits)
    (stopped : state.run rules t = .error fault) : fault.cause.isLimit = false := by
  -- the brackets counted so far are always the containers that are open in the state
  fun_induction State.run rules state t with
  | case1 state t ended => exact not_limit_of_misplaced (finish_fault stopped)
  | case2 state t c rest shape after stepped ih =>
    rw [tokens_cons shape] at shallow short
    refine ih ?_ (fun n later => short n (List.mem_cons_of_mem _ later)) stopped
    rw [opened_of_next stepped]
    exact Nat.le_trans (Nat.le_max_right _ _) shallow
  | case3 state t c rest shape found stepped =>
    cases stopped
    rw [tokens_cons shape] at shallow short
    rw [Bool.eq_false_iff]
    intro limit
    exact not_exceeds shallow (fun n token => short n (token ▸ List.mem_cons_self))
      (exceeds_of_next stepped limit)

theorem isLimit_decode {rules : Rules} {t : Text} {fault : Fault} (within : WithinLimits rules.maxDepth t)
    (stopped : decode rules t = .error fault) : fault.cause.isLimit = false := by
  rw [decode] at stopped
  split at stopped
  · cases stopped; rfl
  · have shallow : deepest (State.value []).opened (tokens t) ≤ rules.maxDepth := within.shallow
    exact isLimit_run shallow within.short stopped

theorem WithinLimits.mono {depth deeper : Nat} {t : Text} (within : WithinLimits depth t)
    (le : depth ≤ deeper) : WithinLimits deeper t :=
  ⟨Nat.le_trans within.shallow le, within.short⟩

end JsonShape.Json
