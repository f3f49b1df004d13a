import JsonShape.Formatter
import Mathlib.Data.List.Basic

/-! What a formatter asks of its machine.

Before its first answer a formatter looks for its program and asks it for its version, and it never does so
again. What it found then decides what every later request does: either no program is started and all code
comes back as it was given, or one program is started for each code, and only one that ends well has a say in
what comes back. A program that fails to format changes nothing for the requests after it. A program that
cannot be talked with makes the request raise, and as long as that happens to the question for the version,
every request starts the search anew.
-/

set_option autoImplicit false

namespace JsonShape

/-! ## Calls -/

namespace Call

def isSearch : Call → Bool
  | .find _ => true
  | .run _ _ _ => false

def isRun : Call → Bool
  | .find _ => false
  | .run _ _ _ => true

/-- A program that gets no text is asked for its version. -/
def isProbe : Call → Bool
  | .run _ none _ => true
  | _ => false

def isFormatting : Call → Bool
  | .run _ (some _) _ => true
  | _ => false

theorem isFormatting_of_isSearch (call : Call) (search : call.isSearch) : call.isFormatting = false := by
  cases call with
  | find program => rfl
  | run command input timeout => cases search

theorem isFormatting_of_isProbe (call : Call) (probe : call.isProbe) : call.isFormatting = false := by
  cases call with
  | find program => rfl
  | run command input timeout =>
    cases input with
    | none => rfl
    | some code => cases probe

end Call

namespace Machine

def upcoming : Nat → List ProcessEnd → List ProcessEnd
  | 0, _ => []
  | n + 1, endings => endings.headD .notStarted :: upcoming n endings.tail

theorem length_upcoming (n : Nat) (endings : List ProcessEnd) : (upcoming n endings).length = n := by
  induction n generalizing endings with
  | zero => rfl
  | succ n ih => rw [upcoming, List.length_cons, ih]

theorem upcoming_add (n k : Nat) (endings : List ProcessEnd) :
    upcoming (n + k) endings = upcoming n endings ++ upcoming k (endings.drop n) := by
  induction n generalizing endings with
  | zero => simp [upcoming]
  | succ n ih => rw [Nat.add_right_comm, upcoming, upcoming, ih, List.drop_tail, List.cons_append]

def making (m : Machine) (calls : List Call) : Machine :=
  { m with endings := m.endings.drop (calls.countP Call.isRun), calls := m.calls ++ calls }

theorem making_nil (m : Machine) : m.making [] = m := by simp [making]

theorem making_append (m : Machine) (calls later : List Call) :
    m.making (calls ++ later) = (m.making calls).making later := by
  simp [making]

theorem find_eq (m : Machine) (program : Text) : m.find program = (m.findsPrograms, m.making [.find program]) := by
  simp [find, making, Call.isRun]

theorem run_eq (m : Machine) (command : List Text) (input : Option Text) (timeout : Json.Value) :
    m.run command input timeout =
      (m.endings.headD .notStarted, m.making [.run command input timeout]) := by
  simp [run, making, Call.isRun]

end Machine

namespace Formatter

inductive Request where
  | availability
  | format (code : Text) (o : FormatterOptions)

inductive Reply where
  | availability (available : Bool)
  | code (t : Text)
  | raised (fault : ProcessFault)

def Reply.ofAnswer {α : Type} (reply : α → Reply) : Except ProcessFault α → Reply
  | .ok answer => reply answer
  | .error fault => .raised fault

def answer (f : Formatter) (r : Request) (m : Machine) : Reply × Formatter × Machine :=
  match r with
  | .availability =>
    let (available, f, m) := f.isAvailable m
    (.ofAnswer .availability available, f, m)
  | .format code o =>
    let (formatted, f, m) := f.format code o m
    (.ofAnswer .code formatted, f, m)

/-- A request with its reply, what was asked of the machine for it and how the programs ended that were
started for it. -/
structure Exchange where
  request : Request
  reply : Reply
  calls : List Call
  endings : List ProcessEnd

def Exchange.formattings (x : Exchange) : List (Call × ProcessEnd) :=
  ((x.calls.filter Call.isRun).zip x.endings).filter (·.1.isFormatting)

def exchange (f : Formatter) (r : Request) (m : Machine) : Exchange × Formatter × Machine :=
  let (reply, f, after) := f.answer r m
  let calls := after.calls.drop m.calls.length
  ({ request := r, reply, calls, endings := Machine.upcoming (calls.countP Call.isRun) m.endings }, f, after)

def converse (f : Formatter) : List Request → Machine → List Exchange × Machine
  | [], m => ([], m)
  | r :: rest, m =>
    let (x, f, m) := f.exchange r m
    let (exchanges, m) := f.converse rest m
    (x :: exchanges, m)

/-! ## One request -/

/-- What the search for a program finds out: it can be used if it is there and tells its version. -/
def verdict (m : Machine) : Except ProcessFault Bool :=
  if m.findsPrograms then endedWell (m.endings.headD .notStarted) else .ok false

def versionCall (f : Formatter) : Call := .run [f.executable, "--version"] none versionTimeout

def probing (f : Formatter) (m : Machine) : List Call :=
  .find f.executable :: if m.findsPrograms then [f.versionCall] else []

def formatting (f : Formatter) (code : Text) (o : FormatterOptions) : Call :=
  .run (f.command o) (some code) o.timeout

/-- How code is formatted by a call: which programs are started for it, how they end, and what comes back. -/
inductive Formats (call : Call) (code : Text) : Bool → List (Call × ProcessEnd) → Reply → Prop where
  | unavailable : Formats call code false [] (.code code)
  | formatted (output : Text) : Formats call code true [(call, .exited 0 output)] (.code output)
  | kept {ending : ProcessEnd} (failed : ∀ output, ending ≠ .exited 0 output)
      (talked : ∀ fault, ending ≠ .raised fault) : Formats call code true [(call, ending)] (.code code)
  | raised (fault : ProcessFault) : Formats call code true [(call, .raised fault)] (.raised fault)

structure Exchange.Fits (f : Formatter) (available : Bool) (x : Exchange) : Prop where
  availability : x.request = .availability → x.reply = .availability available ∧ x.formattings = []
  formats : ∀ code o, x.request = .format code o →
    Formats (f.formatting code o) code available x.formattings x.reply
  raises : ∀ fault, x.reply = .raised fault ↔ .raised fault ∈ x.endings

/-- An exchange in which the program was found but could not be asked for its version. -/
structure Exchange.Fails (f : Formatter) (x : Exchange) : Prop where
  calls : x.calls = [.find f.executable, f.versionCall]
  raises : ∃ fault, x.endings = [.raised fault] ∧ x.reply = .raised fault

variable {f : Formatter} {m : Machine} {r : Request}

/-- What fits depends on the reply and on what was formatted, whatever else was asked. -/
theorem Exchange.Fits.congr {g : Formatter} {available : Bool} {x y : Exchange} (fits : x.Fits g available)
    (program : ∀ code o, g.formatting code o = f.formatting code o) (request : y.request = x.request)
    (reply : y.reply = x.reply) (formattings : y.formattings = x.formattings)
    (endings : ∀ fault, .raised fault ∈ y.endings ↔ .raised fault ∈ x.endings) : y.Fits f available := by
  constructor
  · rw [request, reply, formattings]
    exact fits.availability
  · intro code o asked
    rw [reply, formattings, ← program]
    exact fits.formats code o (request.symm.trans asked)
  · intro fault
    rw [reply, endings]
    exact fits.raises fault

theorem exchange_eq {g : Formatter} {reply : Reply} {calls : List Call}
    (answered : f.answer r m = (reply, g, m.making calls)) :
    f.exchange r m =
      (⟨r, reply, calls, Machine.upcoming (calls.countP Call.isRun) m.endings⟩, g, m.making calls) := by
  have added : (m.making calls).calls.drop m.calls.length = calls := List.drop_left
  unfold exchange
  rw [answered]
  dsimp only
  rw [added]

theorem formats_formatted (call : Call) (code : Text) (ending : ProcessEnd) :
    Formats call code true [(call, ending)] (.ofAnswer .code (formatted code ending)) := by
  unfold formatted
  split
  · exact .formatted _
  · next other =>
    refine .kept (fun output same => ?_) nofun
    cases same
    exact other rfl
  · exact .kept nofun nofun
  · exact .kept nofun nofun
  · exact .raised _

theorem raised_formatted (code : Text) (ending : ProcessEnd) (fault : ProcessFault) :
    Reply.ofAnswer .code (formatted code ending) = .raised fault ↔ .raised fault ∈ [ending] := by
  unfold formatted
  split <;> simp [Reply.ofAnswer, eq_comm]

theorem isAvailable_known {available : Bool} (known : f.available = some available) (m : Machine) :
    f.isAvailable m = (.ok available, f, m) := by
  unfold isAvailable
  rw [known]

theorem isAvailable_fresh (fresh : f.available = none) (m : Machine) :
    f.isAvailable m =
      (verdict m, { f with available := (verdict m).toOption }, m.making (f.probing m)) := by
  have probed : probe f.executable m = (verdict m, m.making (f.probing m)) := by
    unfold probe verdict probing versionCall
    rw [Machine.find_eq]
    cases m.findsPrograms with
    | false => rfl
    | true =>
      simp only [Machine.run_eq, if_true, ← Machine.making_append]
      simp [Machine.making, Call.isRun]
  unfold isAvailable
  rw [fresh, probed]

theorem answer_congr {g : Formatter} {m' : Machine} (same : f.isAvailable m = g.isAvailable m') (r : Request) :
    f.answer r m = g.answer r m' := by
  cases r with
  | availability => unfold answer; rw [same]
  | format code o => unfold answer format; rw [same]

/-- Without an answer about the availability there is none to the request. -/
theorem answer_raised {g : Formatter} {m' : Machine} {fault : ProcessFault}
    (raised : f.isAvailable m = (.error fault, g, m')) (r : Request) :
    f.answer r m = (.raised fault, g, m') := by
  cases r with
  | availability => unfold answer; rw [raised]; rfl
  | format code o => unfold answer format; rw [raised]; rfl

theorem format_known {available : Bool} (known : f.available = some available) (code : Text)
    (o : FormatterOptions) (m : Machine) :
    f.format code o m =
      if available then
        (formatted code (m.endings.headD .notStarted), f, m.making [f.formatting code o])
      else (.ok code, f, m) := by
  unfold format formatting
  rw [isAvailable_known known]
  cases available with
  | false => rfl
  | true =>
    dsimp only
    rw [Machine.run_eq]
    rfl

/-- A formatter that knows whether its program can be used starts it for code alone. -/
theorem answer_known {available : Bool} (known : f.available = some available) (r : Request) (m : Machine) :
    ∃ reply calls, f.answer r m = (reply, f, m.making calls) ∧
      calls.filter (!·.isFormatting) = [] ∧
      (Exchange.mk r reply calls (Machine.upcoming (calls.countP Call.isRun) m.endings)).Fits f available := by
  cases r with
  | availability =>
    refine ⟨.availability available, [], ?_, rfl, fun _ => ⟨rfl, rfl⟩, nofun, ?_⟩
    · unfold answer
      rw [isAvailable_known known, Machine.making_nil]
      rfl
    · simp [Machine.upcoming]
  | format code o =>
    unfold answer
    dsimp only
    rw [format_known known]
    cases available with
    | false =>
      refine ⟨.code code, [], ?_, rfl, nofun, ?_, ?_⟩
      · rw [Machine.making_nil]
        rfl
      · rintro _ _ ⟨⟩
        exact .unavailable
      · simp [Machine.upcoming]
    | true =>
      -- however the program ends, its end is the one that the machine has next
      refine ⟨_, [f.formatting code o], rfl, rfl, nofun, ?_, ?_⟩
      · rintro _ _ ⟨⟩
        exact formats_formatted _ code _
      · exact raised_formatted code _

theorem filter_probing (f : Formatter) (m : Machine) :
    (f.probing m).filter (·.isFormatting) = [] ∧ (f.probing m).filter (!·.isFormatting) = f.probing m := by
  unfold probing
  split <;> exact ⟨rfl, rfl⟩

theorem Exchange.formattings_append {r : Request} {reply : Reply} {before calls : List Call}
    {earlier endings : List ProcessEnd} (length : earlier.length = before.countP Call.isRun)
    (none : before.filter (·.isFormatting) = []) :
    (Exchange.mk r reply (before ++ calls) (earlier ++ endings)).formattings =
      (Exchange.mk r reply calls endings).formattings := by
  have unformatted : ((before.filter Call.isRun).zip earlier).filter (·.1.isFormatting) = [] := by
    rw [List.filter_eq_nil_iff] at none ⊢
    intro pair member
    exact none pair.1 (List.mem_filter.1 (List.of_mem_zip member).1).1
  unfold formattings
  dsimp only
  rw [List.filter_append, List.zip_append (by rw [length, List.countP_eq_length_filter]), List.filter_append,
    unformatted, List.nil_append]

theorem upcoming_probing (f : Formatter) (m : Machine) :
    Machine.upcoming ((f.probing m).countP Call.isRun) m.endings =
      if m.findsPrograms then [m.endings.headD .notStarted] else [] := by
  unfold probing
  cases m.findsPrograms <;> rfl

theorem not_mem_upcoming_probing {available : Bool} (found : verdict m = .ok available) (f : Formatter)
    (fault : ProcessFault) :
    .raised fault ∉ Machine.upcoming ((f.probing m).countP Call.isRun) m.endings := by
  rw [upcoming_probing]
  unfold verdict at found
  split at found
  · next finds =>
    rw [if_pos finds, List.mem_singleton]
    intro same
    rw [← same] at found
    cases found
  · next missing =>
    rw [if_neg missing]
    exact List.not_mem_nil

/-- The first request finds out whether the program can be used and is then answered like any other. -/
theorem exchange_fresh (fresh : f.available = none) {available : Bool} (found : verdict m = .ok available)
    (r : Request) :
    (f.exchange r m).1.request = r ∧ (f.exchange r m).1.Fits f available ∧
      (f.exchange r m).1.calls.filter (!·.isFormatting) = f.probing m ∧
      (f.exchange r m).2.1 = { f with available := some available } ∧
      (f.exchange r m).2.2 = m.making (f.exchange r m).1.calls := by
  have known : Formatter.available { f with available := some available } = some available := rfl
  -- once the search is over, the request is answered as by a formatter that knew
  obtain ⟨reply, calls, answered, unasked, fits⟩ := answer_known known r (m.making (f.probing m))
  have searched := isAvailable_fresh fresh m
  rw [found] at searched
  have same := answer_congr (searched.trans (isAvailable_known known _).symm) r
  rw [answered, ← Machine.making_append] at same
  rw [exchange_eq same]
  have formattings : (Exchange.mk r reply (f.probing m ++ calls)
      (Machine.upcoming ((f.probing m).countP Call.isRun) m.endings ++
        Machine.upcoming (calls.countP Call.isRun) (m.making (f.probing m)).endings)).formattings =
      (Exchange.mk r reply calls
        (Machine.upcoming (calls.countP Call.isRun) (m.making (f.probing m)).endings)).formattings :=
    Exchange.formattings_append (Machine.length_upcoming _ m.endings) (filter_probing f m).1
  refine ⟨rfl, fits.congr (fun _ _ => rfl) rfl rfl ?formattings ?endings, ?asked, rfl, rfl⟩
  case formattings =>
    rw [List.countP_append, Machine.upcoming_add]
    exact formattings
  case endings =>
    intro fault
    dsimp only
    rw [List.countP_append, Machine.upcoming_add, List.mem_append]
    exact or_iff_right (not_mem_upcoming_probing found f fault)
  case asked =>
    dsimp only
    rw [List.filter_append, (filter_probing f m).2, unasked, List.append_nil]

/-- A request that finds nothing out raises, and leaves the formatter as it was. -/
theorem exchange_raised (fresh : f.available = none) {fault : ProcessFault}
    (raised : verdict m = .error fault) (r : Request) :
    (f.exchange r m).1.request = r ∧ (f.exchange r m).1.Fails f ∧ (f.exchange r m).2.1 = f ∧
      (f.exchange r m).2.2 = m.making (f.exchange r m).1.calls := by
  have searched := isAvailable_fresh fresh m
  have same : { f with available := none } = f := by rw [← fresh]
  rw [raised] at searched
  rw [exchange_eq (answer_raised searched r)]
  -- only a program that was found can raise
  unfold verdict at raised
  split at raised
  · next finds =>
    have ends : m.endings.headD .notStarted = .raised fault := by
      unfold endedWell at raised
      split at raised <;> cases raised
      assumption
    refine ⟨rfl, ⟨?_, fault, ?_, rfl⟩, same, rfl⟩
    · simp [probing, finds]
    · dsimp only
      rw [upcoming_probing, if_pos finds, ends]
  · cases raised

theorem exchange_known {available : Bool} (known : f.available = some available) (r : Request) (m : Machine) :
    (f.exchange r m).1.request = r ∧ (f.exchange r m).1.Fits f available ∧
      (f.exchange r m).1.calls.filter (!·.isFormatting) = [] ∧
      (f.exchange r m).2.1 = f ∧ (f.exchange r m).2.2 = m.making (f.exchange r m).1.calls := by
  obtain ⟨reply, calls, answered, unasked, fits⟩ := answer_known known r m
  rw [exchange_eq answered]
  exact ⟨rfl, fits, unasked, rfl, rfl⟩

/-! ## Many requests -/

theorem converse_cons (f : Formatter) (r : Request) (rest : List Request) (m : Machine) :
    f.converse (r :: rest) m =
      ((f.exchange r m).1 :: ((f.exchange r m).2.1.converse rest (f.exchange r m).2.2).1,
        ((f.exchange r m).2.1.converse rest (f.exchange r m).2.2).2) := rfl

theorem converse_known {available : Bool} (known : f.available = some available) (requests : List Request)
    (m : Machine) :
    (f.converse requests m).1.map (·.request) = requests ∧
      (∀ x ∈ (f.converse requests m).1, x.Fits f available) ∧
      ((f.converse requests m).1.flatMap (·.calls)).filter (!·.isFormatting) = [] ∧
      (f.converse requests m).2 = m.making ((f.converse requests m).1.flatMap (·.calls)) := by
  induction requests generalizing m with
  | nil => exact ⟨rfl, List.forall_mem_nil _, rfl, m.making_nil.symm⟩
  | cons r rest ih =>
    obtain ⟨request, fits, unasked, same, after⟩ := exchange_known known r m
    rw [converse_cons, same]
    obtain ⟨requests, allFit, noneAsked, afterAll⟩ := ih (f.exchange r m).2.2
    refine ⟨?_, List.forall_mem_cons.2 ⟨fits, allFit⟩, ?_, ?_⟩
    · rw [List.map_cons, request, requests]
    · rw [List.flatMap_cons, List.filter_append, unasked, noneAsked, List.append_nil]
    · rw [afterAll, List.flatMap_cons, Machine.making_append, ← after]

/-- Whatever is asked of a formatter, its program is looked for once at most and probed once at most, and it is
started again only to format. -/
structure ProbesOnce (f : Formatter) (requests : List Request) (m : Machine) (exchanges : List Exchange)
    (after : Machine) : Prop where
  answered : exchanges.map (·.request) = requests
  logged : after = m.making (exchanges.flatMap (·.calls))
  searches : (exchanges.flatMap (·.calls)).countP Call.isSearch ≤ 1
  probes : (exchanges.flatMap (·.calls)).countP Call.isProbe ≤ if m.findsPrograms then 1 else 0
  steady : ∀ x ∈ exchanges, ∀ y ∈ exchanges, x.request = .availability → y.request = .availability →
    x.reply = y.reply
  fits : ∀ x ∈ exchanges, ∃ available, verdict m = .ok available ∧ x.Fits f available

theorem countP_unformatted {p : Call → Bool} (other : ∀ call, p call → call.isFormatting = false)
    (calls : List Call) : calls.countP p = (calls.filter (!·.isFormatting)).countP p := by
  rw [List.countP_filter]
  congr 1
  funext call
  cases asked : p call with
  | false => rfl
  | true => rw [other call asked]; rfl

theorem countP_probing (f : Formatter) (m : Machine) :
    (f.probing m).countP Call.isSearch = 1 ∧
      (f.probing m).countP Call.isProbe = if m.findsPrograms then 1 else 0 := by
  unfold probing
  split <;> exact ⟨rfl, rfl⟩

theorem probesOnce_nil (f : Formatter) (m : Machine) : ProbesOnce f [] m [] m :=
  ⟨rfl, m.making_nil.symm, Nat.zero_le _, Nat.zero_le _, List.forall_mem_nil _, List.forall_mem_nil _⟩

/-- A search that finds something out is the last one. -/
theorem converse_found (fresh : f.available = none) {available : Bool} (found : verdict m = .ok available)
    (r : Request) (rest : List Request) :
    ProbesOnce f (r :: rest) m (f.converse (r :: rest) m).1 (f.converse (r :: rest) m).2 := by
  obtain ⟨request, fits, asked, knows, after⟩ := exchange_fresh fresh found r
  rw [converse_cons, knows]
  have known : Formatter.available { f with available := some available } = some available := rfl
  obtain ⟨requests, allFit, noneAsked, afterAll⟩ := converse_known known rest (f.exchange r m).2.2
  generalize converse _ rest _ = later at requests allFit noneAsked afterAll
  generalize f.exchange r m = first at request fits asked after afterAll
  have each : ∀ x ∈ first.1 :: later.1, x.Fits f available :=
    List.forall_mem_cons.2 ⟨fits, fun x member =>
      (allFit x member).congr (fun _ _ => rfl) rfl rfl rfl fun _ => Iff.rfl⟩
  -- all that is asked besides formatting is asked for the first request
  have unformatted : ((first.1 :: later.1).flatMap (·.calls)).filter (!·.isFormatting) = f.probing m := by
    rw [List.flatMap_cons, List.filter_append, asked, noneAsked, List.append_nil]
  obtain ⟨searches, probes⟩ := countP_probing f m
  refine ⟨?answered, ?logged, ?searches, ?probes, ?steady, fun x member => ⟨available, found, each x member⟩⟩
  case answered => rw [List.map_cons, request, requests]
  case logged => rw [afterAll, after, ← Machine.making_append, List.flatMap_cons]
  case searches =>
    rw [countP_unformatted Call.isFormatting_of_isSearch, unformatted]
    exact Nat.le_of_eq searches
  case probes =>
    rw [countP_unformatted Call.isFormatting_of_isProbe, unformatted]
    exact Nat.le_of_eq probes
  case steady =>
    intro x first y second asksFirst asksSecond
    exact ((each x first).availability asksFirst).1.trans ((each y second).availability asksSecond).1.symm

/-- The first requests may all fail to ask for the version; from the next one on the program is probed once. -/
theorem converse_split (fresh : f.available = none) (requests : List Request) (m : Machine) :
    ∃ failed later, (f.converse requests m).1 = failed ++ later ∧ (∀ x ∈ failed, x.Fails f) ∧
      failed.map (·.request) = requests.take failed.length ∧
      ProbesOnce f (requests.drop failed.length) (m.making (failed.flatMap (·.calls))) later
        (f.converse requests m).2 := by
  induction requests generalizing m with
  | nil =>
    refine ⟨[], [], rfl, List.forall_mem_nil _, rfl, ?_⟩
    rw [List.flatMap_nil, m.making_nil]
    exact probesOnce_nil f m
  | cons r rest ih =>
    cases found : verdict m with
    | ok available =>
      refine ⟨[], _, rfl, List.forall_mem_nil _, rfl, ?_⟩
      rw [List.flatMap_nil, m.making_nil]
      exact converse_found fresh found r rest
    | error fault =>
      obtain ⟨request, fails, same, after⟩ := exchange_raised fresh found r
      rw [converse_cons, same]
      obtain ⟨failed, later, parts, allFail, asked, once⟩ := ih (f.exchange r m).2.2
      refine ⟨(f.exchange r m).1 :: failed, later, ?_, List.forall_mem_cons.2 ⟨fails, allFail⟩, ?_, ?_⟩
      · rw [parts, List.cons_append]
      · rw [List.map_cons, request, asked, List.length_cons, List.take_succ_cons]
      · rwa [List.flatMap_cons, Machine.making_append, ← after, List.length_cons, List.drop_succ_cons]

/-- How a new formatter answers. While its program cannot be asked for its version, every request raises what
that raised and nothing is remembered. From the next request on the program is probed once. -/
structure ProbesUntilKnown (f : Formatter) (requests : List Request) (m : Machine)
    (exchanges : List Exchange) (after : Machine) : Prop where
  answered : exchanges.map (·.request) = requests
  logged : after = m.making (exchanges.flatMap (·.calls))
  split : ∃ failed later, exchanges = failed ++ later ∧ (∀ x ∈ failed, x.Fails f) ∧
    ProbesOnce f (requests.drop failed.length) (m.making (failed.flatMap (·.calls))) later after
  /-- A request raises exactly what a program started for it raised. -/
  raises : ∀ x ∈ exchanges, ∀ fault, x.reply = .raised fault ↔ .raised fault ∈ x.endings
  /-- As long as all programs can be talked with, the first request is the only one that probes. -/
  talked : (∀ x ∈ exchanges, ∀ fault, .raised fault ∉ x.endings) → ProbesOnce f requests m exchanges after

theorem Exchange.Fails.raised_iff {x : Exchange} (fails : x.Fails f) (fault : ProcessFault) :
    x.reply = .raised fault ↔ .raised fault ∈ x.endings := by
  obtain ⟨raised, endings, reply⟩ := fails.raises
  simp [endings, reply, eq_comm]

theorem converse_probes (executable : Text) (requests : List Request) (m : Machine) :
    ProbesUntilKnown { executable } requests m (converse { executable } requests m).1
      (converse { executable } requests m).2 := by
  obtain ⟨failed, later, parts, fails, asked, once⟩ := @converse_split { executable } rfl requests m
  refine ⟨?answered, ?logged, ⟨failed, later, parts, fails, once⟩, ?raises, ?talked⟩
  case answered => rw [parts, List.map_append, asked, once.answered, List.take_append_drop]
  case logged => rw [parts, List.flatMap_append, Machine.making_append, once.logged]
  case raises =>
    rw [parts]
    refine List.forall_mem_append.2 ⟨fun x member => (fails x member).raised_iff, fun x member => ?_⟩
    obtain ⟨_, _, fits⟩ := once.fits x member
    exact fits.raises
  case talked =>
    intro regular
    -- an exchange that fails has a program that raised
    have none : failed = [] := by
      refine List.eq_nil_iff_forall_not_mem.2 fun x member => ?_
      obtain ⟨fault, endings, _⟩ := (fails x member).raises
      refine regular x (parts ▸ List.mem_append_left later member) fault ?_
      rw [endings]
      exact List.mem_singleton_self _
    subst none
    rw [parts]
    rwa [List.flatMap_nil, m.making_nil] at once

def garbled : ProcessEnd := .raised (.undecodable ⟨.invalidStart, 0, 1, 0xFF⟩)

/-- A program that writes no text makes requests raise, and one that does so when it is asked for its version
is looked for again. -/
theorem converse_garbled :
    (converse {} [.availability, .availability]
        { findsPrograms := true, endings := [garbled, .exited 0 "3.0.0"] }).1.map (·.reply) =
      [.raised (.undecodable ⟨.invalidStart, 0, 1, 0xFF⟩), .availability true] ∧
    (converse {} [.availability, .availability]
        { findsPrograms := true, endings := [garbled, .exited 0 "3.0.0"] }).2.calls.countP Call.isSearch = 2 ∧
    (converse {} [.format "let a" {}]
        { findsPrograms := true, endings := [.exited 0 "3.0.0", garbled] }).1.map (·.reply) =
      [.raised (.undecodable ⟨.invalidStart, 0, 1, 0xFF⟩)] :=
  ⟨rfl, rfl, rfl⟩

end Formatter

end JsonShape
