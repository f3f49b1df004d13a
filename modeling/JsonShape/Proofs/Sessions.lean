import JsonShape.Session
import Mathlib.Data.List.Induction

/-! Safety of runs in a session.

Events may come in any order: runs overlap, end early, raise or are finished twice. What a session shows
is always the result of the run committed last, which is what the text and the settings of that run give
on their own. One invariant relates the runs started, the runs that wait and the ends so far. It is stated
with a list of open runs, so that it covers the moment between a run leaving the waiting list and its end.
-/

set_option autoImplicit false

namespace JsonShape.Session

/-! ## Plays -/

def submissions (defaults : SettingsObject) (events : List Event) : List (Text × SettingsObject) :=
  events.filterMap fun
    | .start t settings => some (t, settings.getD defaults)
    | .finish _ => none

def play (format : Format) (defaults : SettingsObject) (events : List Event) : Session × List Ended :=
  events.foldl (fun (s, log) e => ((step format s e).1, log ++ (step format s e).2))
    (initial defaults, [])

/-- What the submission of a run gives when it is converted alone. -/
def alone (format : Format) (started : List (Text × SettingsObject)) (run : Nat) :
    Option (Except Failure Result) :=
  started[run]?.map fun (t, settings) => convert format settings t

def Waits (started : List (Text × SettingsObject)) (run : Nat) : Prop :=
  ∃ t settings o r, started[run]? = some (t, settings) ∧
    Conversion.start settings t = .ok (.formatting o r)

def Outcome.isCommitted : Outcome → Bool
  | .committed => true
  | _ => false

def committed (log : List Ended) : List Nat :=
  (log.filter (·.outcome.isCommitted)).map Ended.run

theorem play_append (format : Format) (defaults : SettingsObject) (events : List Event) (e : Event) :
    play format defaults (events ++ [e]) =
      ((step format (play format defaults events).1 e).1,
        (play format defaults events).2 ++ (step format (play format defaults events).1 e).2) := by
  simp only [play, List.foldl_append, List.foldl_cons, List.foldl_nil]

theorem submissions_append (defaults : SettingsObject) (events later : List Event) :
    submissions defaults (events ++ later) =
      submissions defaults events ++ submissions defaults later :=
  List.filterMap_append

theorem committed_append (log more : List Ended) :
    committed (log ++ more) = committed log ++ committed more := by
  simp only [committed, List.filter_append, List.map_append]

theorem mem_committed {log : List Ended} {run : Nat} (member : run ∈ committed log) :
    ∃ ended ∈ log, ended.run = run ∧ ended.outcome = .committed := by
  obtain ⟨ended, kept, rfl⟩ := List.mem_map.1 member
  obtain ⟨inside, commits⟩ := List.mem_filter.1 kept
  refine ⟨ended, inside, rfl, ?_⟩
  cases outcome : ended.outcome with
  | committed => rfl
  | discarded => rw [outcome] at commits; cases commits
  | failed f => rw [outcome] at commits; cases commits

theorem alone_eq {started : List (Text × SettingsObject)} {run : Nat} {t : Text} {settings : SettingsObject}
    (found : started[run]? = some (t, settings)) (format : Format) :
    alone format started run = some ((Conversion.start settings t).bind (·.finish format)) := by
  rw [alone, found]
  rfl

theorem alone_append {format : Format} {started : List (Text × SettingsObject)} {run : Nat}
    {given : Except Failure Result} (found : alone format started run = some given)
    (later : List (Text × SettingsObject)) : alone format (started ++ later) run = some given := by
  obtain ⟨submission, at_, rfl⟩ := Option.map_eq_some_iff.1 found
  obtain ⟨bound, _⟩ := List.getElem?_eq_some_iff.1 at_
  rw [alone, List.getElem?_append_left bound, at_]
  rfl

/-! ## The invariant -/

section

variable (format : Format) (defaults : SettingsObject) (started : List (Text × SettingsObject))

def Shows (log : List Ended) (shown : Result) : Prop :=
  match (committed log).getLast? with
  | none => shown = (initial defaults).result
  | some run => alone format started run = some (.ok shown)

/-- How a run has to end: as its submission does alone, and without an exception as the newest run or
as one overtaken by then. -/
inductive Verdict : Ended → Prop where
  | failed (run : Nat) (f : Failure) (raises : alone format started run = some (.error f)) :
      Verdict ⟨run, .failed f⟩
  | committed (run : Nat) (r : Result) (gives : alone format started run = some (.ok r))
      (newest : run + 1 = started.length) : Verdict ⟨run, .committed⟩
  | discarded (run : Nat) (r : Result) (gives : alone format started run = some (.ok r))
      (overtaken : run + 1 < started.length) : Verdict ⟨run, .discarded⟩

/-- Every run started is open, waits or has ended, and only one of these. -/
structure Invariant (opened : List Nat) (s : Session) (log : List Ended) : Prop where
  defaults_eq : s.defaults = defaults
  count : s.started = started.length
  runs : (opened ++ (s.waiting.map Prod.fst ++ log.map Ended.run)).Perm (List.range started.length)
  waiting : ∀ run o r, (run, o, r) ∈ s.waiting → ∃ t settings,
    started[run]? = some (t, settings) ∧ Conversion.start settings t = .ok (.formatting o r)
  ordered : (committed log).Pairwise (· < ·)
  newest : ∀ ended ∈ log, ended.run + 1 = started.length → (∀ f, ended.outcome ≠ .failed f) →
    ended.run ∈ committed log
  shows : Shows format defaults started log s.result

end

section

variable {format : Format} {defaults : SettingsObject} {started : List (Text × SettingsObject)}
  {opened : List Nat} {s : Session} {log : List Ended} {run : Nat}

theorem Invariant.nodup (kept : Invariant format defaults started opened s log) :
    (opened ++ (s.waiting.map Prod.fst ++ log.map Ended.run)).Nodup :=
  kept.runs.nodup_iff.2 List.nodup_range

theorem Invariant.lt_of_mem (kept : Invariant format defaults started opened s log)
    (member : run ∈ opened ++ (s.waiting.map Prod.fst ++ log.map Ended.run)) :
    run < started.length :=
  List.mem_range.1 (kept.runs.mem_iff.1 member)

theorem Invariant.separate (kept : Invariant format defaults started opened s log) :
    (s.waiting.map Prod.fst).Nodup ∧ (log.map Ended.run).Nodup ∧
      ∀ run ∈ s.waiting.map Prod.fst, run ∉ log.map Ended.run := by
  obtain ⟨_, nodup, _⟩ := List.nodup_append.1 kept.nodup
  obtain ⟨waiting, ended, apart⟩ := List.nodup_append.1 nodup
  exact ⟨waiting, ended, fun run waits ends => apart run waits run ends rfl⟩

theorem runs_close {waiting ended range : List Nat}
    (runs : ([run] ++ (waiting ++ ended)).Perm range) :
    ([] ++ (waiting ++ (ended ++ [run]))).Perm range := by
  rw [List.nil_append, ← List.append_assoc]
  exact (List.perm_append_singleton run (waiting ++ ended)).trans runs

/-- The open run is the newest one and commits. -/
theorem Invariant.commit (kept : Invariant format defaults started [run] s log) {r : Result}
    (gives : alone format started run = some (.ok r)) (latest : run + 1 = started.length) :
    Invariant format defaults started [] { s with result := r } (log ++ [⟨run, .committed⟩]) := by
  have more : committed (log ++ [⟨run, .committed⟩]) = committed log ++ [run] := committed_append log _
  refine ⟨kept.defaults_eq, kept.count, ?_, kept.waiting, ?_, ?_, ?_⟩
  · rw [List.map_append]
    exact runs_close kept.runs
  · rw [more, List.pairwise_append]
    refine ⟨kept.ordered, List.pairwise_singleton _ _, ?_⟩
    intro earlier before last isLast
    cases List.mem_singleton.1 isLast
    obtain ⟨ended, inside, rfl, _⟩ := mem_committed before
    -- an earlier end belongs to another run, and no run is newer than the open one
    have among : ended.run ∈ s.waiting.map Prod.fst ++ log.map Ended.run :=
      List.mem_append_right _ (List.mem_map_of_mem inside)
    have other : run ≠ ended.run := fun same =>
      (List.nodup_cons.1 kept.nodup).1 (same ▸ among)
    have bound := kept.lt_of_mem (List.mem_append_right [run] among)
    omega
  · intro ended inside isLatest regular
    rw [more, List.mem_append]
    rcases List.mem_append.1 inside with old | new
    · exact .inl (kept.newest ended old isLatest regular)
    · cases List.mem_singleton.1 new
      exact .inr (List.mem_singleton_self run)
  · rw [Shows, more, List.getLast?_concat]
    exact gives

/-- The open run ends without a commit, as one that was overtaken or has raised. -/
theorem Invariant.drop (kept : Invariant format defaults started [run] s log) {outcome : Outcome}
    (silent : outcome.isCommitted = false)
    (stale : run + 1 = started.length → ∃ f, outcome = .failed f) :
    Invariant format defaults started [] s (log ++ [⟨run, outcome⟩]) := by
  have same : committed (log ++ [⟨run, outcome⟩]) = committed log := by
    rw [committed_append]
    simp only [committed, List.filter_cons, silent, List.filter_nil, Bool.false_eq_true, if_false,
      List.map_nil, List.append_nil]
  refine ⟨kept.defaults_eq, kept.count, ?_, kept.waiting, ?_, ?_, ?_⟩
  · rw [List.map_append]
    exact runs_close kept.runs
  · rw [same]
    exact kept.ordered
  · intro ended inside isLatest regular
    rw [same]
    rcases List.mem_append.1 inside with old | new
    · exact kept.newest ended old isLatest regular
    · cases List.mem_singleton.1 new
      obtain ⟨f, raised⟩ := stale isLatest
      exact absurd raised (regular f)
  · rw [Shows, same]
    exact kept.shows

def Advances (format : Format) (defaults : SettingsObject) (started : List (Text × SettingsObject))
    (log : List Ended) (next : Session × List Ended) : Prop :=
  Invariant format defaults started [] next.1 (log ++ next.2) ∧
    ∀ ended ∈ next.2, Verdict format started ended

theorem Invariant.settle (kept : Invariant format defaults started [run] s log)
    {given : Except Failure Result} (gives : alone format started run = some given) :
    Advances format defaults started log (s.settle run given) := by
  have bound := kept.lt_of_mem (List.mem_append_left _ (List.mem_singleton_self run))
  cases given with
  | error f =>
    refine ⟨kept.drop rfl fun _ => ⟨f, rfl⟩, ?_⟩
    intro ended member
    cases List.mem_singleton.1 member
    exact .failed run f gives
  | ok r =>
    by_cases latest : run + 1 = s.started
    · rw [Session.settle, if_pos latest]
      refine ⟨kept.commit gives (latest.trans kept.count), ?_⟩
      intro ended member
      cases List.mem_singleton.1 member
      exact .committed run r gives (latest.trans kept.count)
    · have overtaken : run + 1 < started.length := by
        rw [kept.count] at latest
        omega
      rw [Session.settle, if_neg latest]
      refine ⟨kept.drop rfl fun isLatest => absurd isLatest (Nat.ne_of_lt overtaken), ?_⟩
      intro ended member
      cases List.mem_singleton.1 member
      exact .discarded run r gives overtaken

/-! ## Steps -/

theorem mem_of_lookup {waiting : List (Nat × FormatterOptions × Result)}
    {entry : FormatterOptions × Result} (found : waiting.lookup run = some entry) :
    (run, entry) ∈ waiting := by
  obtain ⟨before, after, split, _⟩ := List.lookup_eq_some_iff.1 found
  rw [split]
  exact List.mem_append_right before List.mem_cons_self

theorem Invariant.opens (kept : Invariant format defaults started [] s log)
    (submission : Text × SettingsObject) :
    Invariant format defaults (started ++ [submission]) [s.started]
      { s with started := s.started + 1 } log := by
  have length : (started ++ [submission]).length = started.length + 1 := List.length_append
  refine ⟨kept.defaults_eq, ?_, ?_, ?_, kept.ordered, ?_, ?_⟩
  · rw [length, ← kept.count]
  · rw [length, List.range_succ, kept.count]
    exact List.perm_append_comm.trans (kept.runs.append_right [started.length])
  · intro run o r member
    obtain ⟨t, settings, found, formatting⟩ := kept.waiting run o r member
    obtain ⟨bound, _⟩ := List.getElem?_eq_some_iff.1 found
    exact ⟨t, settings, (List.getElem?_append_left bound).trans found, formatting⟩
  · intro ended inside isLatest
    -- no run that has ended has the number of the new one
    have bound := kept.lt_of_mem
      (List.mem_append_right [] (List.mem_append_right _ (List.mem_map_of_mem inside)))
    omega
  · have shows := kept.shows
    unfold Shows at shows ⊢
    cases last : (committed log).getLast? with
    | none => rwa [last] at shows
    | some run =>
      rw [last] at shows
      exact alone_append shows [submission]

theorem Invariant.waits (kept : Invariant format defaults started [run] s log) {t : Text}
    {settings : SettingsObject} {o : FormatterOptions} {r : Result}
    (found : started[run]? = some (t, settings))
    (formatting : Conversion.start settings t = .ok (.formatting o r)) :
    Invariant format defaults started [] { s with waiting := s.waiting ++ [(run, o, r)] } log := by
  refine ⟨kept.defaults_eq, kept.count, ?_, ?_, kept.ordered, kept.newest, kept.shows⟩
  · rw [List.nil_append, List.map_append, List.append_assoc]
    exact List.perm_middle.trans kept.runs
  · intro other o' r' member
    rcases List.mem_append.1 member with old | new
    · exact kept.waiting other o' r' old
    · cases List.mem_singleton.1 new
      exact ⟨t, settings, found, formatting⟩

/-- The formatter is done with a waiting run, which is open until it ends. -/
theorem Invariant.takes (kept : Invariant format defaults started [] s log)
    (member : run ∈ s.waiting.map Prod.fst) :
    Invariant format defaults started [run]
      { s with waiting := s.waiting.filter (·.1 ≠ run) } log := by
  -- no run waits twice, so taking it out of the list erases it once
  have distinct := kept.separate.1
  have rest : (s.waiting.filter (·.1 ≠ run)).map Prod.fst = (s.waiting.map Prod.fst).erase run := by
    rw [distinct.erase_eq_filter, List.filter_map]
    congr 1
    apply List.filter_congr
    intro entry _
    rw [Bool.eq_iff_iff, decide_eq_true_iff, Function.comp_apply, bne_iff_ne]
  refine ⟨kept.defaults_eq, kept.count, ?_, ?_, kept.ordered, kept.newest, kept.shows⟩
  · rw [rest, List.singleton_append, ← List.cons_append]
    exact ((List.perm_cons_erase member).symm.append_right _).trans kept.runs
  · intro other o r inside
    exact kept.waiting other o r (List.mem_filter.1 inside).1

theorem Invariant.begin (kept : Invariant format defaults started [] s log) (t : Text)
    (settings : SettingsObject) :
    Advances format defaults (started ++ [(t, settings)]) log (s.begin t settings) := by
  -- the new run is open until it is known whether it waits
  have opened := kept.opens (t, settings)
  have found : (started ++ [(t, settings)])[s.started]? = some (t, settings) := by
    rw [kept.count, List.getElem?_concat_length]
  have gives := alone_eq found format
  unfold Session.begin
  cases progress : Conversion.start settings t with
  | error f =>
    rw [progress] at gives
    exact opened.settle gives
  | ok progressed =>
    rw [progress] at gives
    cases progressed with
    | done r => exact opened.settle gives
    | formatting o r =>
      refine ⟨?_, fun ended member => absurd member List.not_mem_nil⟩
      rw [List.append_nil]
      exact opened.waits found progress

theorem Invariant.finish (kept : Invariant format defaults started [] s log) (run : Nat) :
    Advances format defaults started log (s.finish format run) := by
  unfold Session.finish
  cases waiting : s.waiting.lookup run with
  | none =>
    refine ⟨?_, fun ended member => absurd member List.not_mem_nil⟩
    rw [List.append_nil]
    exact kept
  | some entry =>
    obtain ⟨o, r⟩ := entry
    have member := mem_of_lookup waiting
    obtain ⟨t, settings, found, formatting⟩ := kept.waiting run o r member
    have gives := alone_eq found format
    rw [formatting] at gives
    exact (kept.takes (List.mem_map_of_mem member)).settle gives

/-- One step keeps the invariant, and whatever ends in it ends as it has to. -/
theorem Invariant.step (kept : Invariant format defaults started [] s log) (e : Event) :
    Advances format defaults (started ++ submissions defaults [e]) log (s.step format e) := by
  cases e with
  | start t settings =>
    unfold Session.step
    rw [kept.defaults_eq]
    exact kept.begin t (settings.getD defaults)
  | finish run =>
    have none : started ++ submissions defaults [.finish run] = started := List.append_nil started
    rw [none]
    exact kept.finish run

/-! ## When runs end -/

theorem waits_iff {t : Text} {settings : SettingsObject} (found : started[run]? = some (t, settings)) :
    Waits started run ↔ ∃ o r, Conversion.start settings t = .ok (.formatting o r) := by
  constructor
  · rintro ⟨t', settings', o, r, found', formatting⟩
    cases found.symm.trans found'
    exact ⟨o, r, formatting⟩
  · rintro ⟨o, r, formatting⟩
    exact ⟨t, settings, o, r, found, formatting⟩

theorem settle_runs (s : Session) (run : Nat) (given : Except Failure Result) :
    (s.settle run given).2.map Ended.run = [run] := by
  unfold settle
  split
  · rfl
  · split <;> rfl

theorem begin_runs_of_formatting {t : Text} {settings : SettingsObject} {o : FormatterOptions} {r : Result}
    (formatting : Conversion.start settings t = .ok (.formatting o r)) :
    (s.begin t settings).2.map Ended.run = [] := by
  rw [Session.begin, formatting]
  rfl

theorem begin_runs_of_ready {t : Text} {settings : SettingsObject}
    (ready : ¬ ∃ o r, Conversion.start settings t = .ok (.formatting o r)) :
    (s.begin t settings).2.map Ended.run = [s.started] := by
  unfold Session.begin
  cases progress : Conversion.start settings t with
  | error f => exact settle_runs _ _ (.error f)
  | ok progressed =>
    cases progressed with
    | done r => exact settle_runs _ _ (.ok r)
    | formatting o r => exact absurd ⟨o, r, progress⟩ ready

theorem mem_begin_runs (count : s.started = started.length) (t : Text) (settings : SettingsObject) :
    run ∈ (s.begin t settings).2.map Ended.run ↔
      run = started.length ∧ ¬ Waits (started ++ [(t, settings)]) run := by
  have found : (started ++ [(t, settings)])[started.length]? = some (t, settings) :=
    List.getElem?_concat_length
  by_cases waits : Waits (started ++ [(t, settings)]) started.length
  · obtain ⟨o, r, formatting⟩ := (waits_iff found).1 waits
    rw [begin_runs_of_formatting formatting]
    refine ⟨fun member => absurd member List.not_mem_nil, ?_⟩
    rintro ⟨same, ready⟩
    exact absurd waits (same ▸ ready)
  · rw [begin_runs_of_ready fun formatting => waits ((waits_iff found).2 formatting),
      List.mem_singleton, count]
    refine ⟨fun same => ⟨same, ?_⟩, And.left⟩
    rw [same]
    exact waits

/-- Finishing ends a run that waits and has not ended, and nothing else. -/
theorem Invariant.mem_finish_runs (kept : Invariant format defaults started [] s log)
    (run other : Nat) :
    other ∈ (s.finish format run).2.map Ended.run ↔
      other = run ∧ Waits started run ∧ run ∉ log.map Ended.run := by
  unfold Session.finish
  cases waiting : s.waiting.lookup run with
  | none =>
    refine ⟨fun member => absurd member List.not_mem_nil, ?_⟩
    rintro ⟨_, ⟨t, settings, _, _, found, _⟩, unended⟩
    obtain ⟨bound, _⟩ := List.getElem?_eq_some_iff.1 found
    have member := kept.runs.mem_iff.2 (List.mem_range.2 bound)
    rw [List.nil_append] at member
    rcases List.mem_append.1 member with waits | ended
    · obtain ⟨entry, inside, rfl⟩ := List.mem_map.1 waits
      exact absurd rfl (bne_iff_ne.1 (List.lookup_eq_none_iff.1 waiting entry inside))
    · exact absurd ended unended
  | some entry =>
    obtain ⟨o, r⟩ := entry
    have member := mem_of_lookup waiting
    obtain ⟨t, settings, found, formatting⟩ := kept.waiting run o r member
    have unended := kept.separate.2.2 run (List.mem_map_of_mem member)
    rw [settle_runs, List.mem_singleton]
    exact ⟨fun same => ⟨same, ⟨t, settings, o, r, found, formatting⟩, unended⟩, And.left⟩

/-- Only a commit changes what is shown. -/
theorem settle_result {given : Except Failure Result}
    (silent : ∀ ended ∈ (s.settle run given).2, ended.outcome ≠ .committed) :
    (s.settle run given).1.result = s.result := by
  cases given with
  | error f => rfl
  | ok r =>
    unfold settle at silent ⊢
    by_cases latest : run + 1 = s.started
    · simp only [if_pos latest] at silent
      exact absurd rfl (silent _ (List.mem_singleton_self _))
    · simp only [if_neg latest]

theorem step_result {e : Event}
    (silent : ∀ ended ∈ (s.step format e).2, ended.outcome ≠ .committed) :
    (s.step format e).1.result = s.result := by
  cases e with
  | start t settings =>
    simp only [step, Session.begin] at silent ⊢
    cases progress : Conversion.start (settings.getD s.defaults) t with
    | error f => rfl
    | ok progressed =>
      rw [progress] at silent
      cases progressed with
      | done r => exact settle_result silent
      | formatting o r => rfl
  | finish run =>
    simp only [step, Session.finish] at silent ⊢
    cases waiting : s.waiting.lookup run with
    | none => rfl
    | some entry =>
      rw [waiting] at silent
      exact settle_result silent

theorem Invariant.lookup_ended (kept : Invariant format defaults started [] s log)
    (ended : run ∈ log.map Ended.run) : s.waiting.lookup run = none := by
  rw [List.lookup_eq_none_iff]
  intro entry inside
  refine bne_iff_ne.2 fun same => ?_
  exact kept.separate.2.2 run (same ▸ List.mem_map_of_mem inside) ended

/-- The newest run is the one committed last, if it has ended without an exception. -/
theorem Invariant.shows_newest (kept : Invariant format defaults started [] s log) {ended : Ended}
    (member : ended ∈ log) (latest : ended.run + 1 = started.length)
    (regular : ∀ f, ended.outcome ≠ .failed f) :
    alone format started ended.run = some (.ok s.result) := by
  have inside := kept.newest ended member latest regular
  have shows := kept.shows
  unfold Shows at shows
  cases last : (committed log).getLast? with
  | none =>
    rw [List.getLast?_eq_none_iff.1 last] at inside
    cases inside
  | some run =>
    rw [last] at shows
    obtain ⟨before, split⟩ := List.getLast?_eq_some_iff.1 last
    rw [split, List.mem_append, List.mem_singleton] at inside
    rcases inside with earlier | same
    · -- a later commit would be of a run newer than the newest
      have order := kept.ordered
      rw [split, List.pairwise_append] at order
      have less := order.2.2 ended.run earlier run (List.mem_singleton_self run)
      obtain ⟨_, inLog, rfl, _⟩ :=
        mem_committed (split ▸ List.mem_append_right before (List.mem_singleton_self run))
      have bound := kept.lt_of_mem
        (List.mem_append_right [] (List.mem_append_right _ (List.mem_map_of_mem inLog)))
      omega
    · rw [same]
      exact shows

end

/-! ## Runs of a session -/

section

variable (format : Format) (defaults : SettingsObject) (events : List Event)

theorem play_invariant :
    Invariant format defaults (submissions defaults events) [] (play format defaults events).1
      (play format defaults events).2 := by
  induction events using List.reverseRecOn with
  | nil =>
    refine ⟨rfl, rfl, List.Perm.refl _, ?_, List.Pairwise.nil, ?_, rfl⟩
    · exact fun run o r member => absurd member List.not_mem_nil
    · exact fun ended member => absurd member List.not_mem_nil
  | append_singleton events e kept =>
    -- the last event is one step from a state in which the invariant holds
    rw [play_append, submissions_append]
    exact (kept.step e).1

def ends (e : Event) : List Ended := (step format (play format defaults events).1 e).2

/-- What the next event, whichever it is, and the events so far keep to. -/
structure Safe : Prop where
  endsOnce : ((play format defaults events).2.map Ended.run).Nodup
  /-- Without a formatter to wait for, a run ends in the event that starts it. -/
  endsStarted : ∀ t settings run,
    run ∈ (ends format defaults events (.start t settings)).map Ended.run ↔
      run = (submissions defaults events).length ∧
        ¬ Waits (submissions defaults (events ++ [.start t settings])) run
  /-- A run that waits ends when it is finished, and never again. -/
  endsFinished : ∀ run other,
    other ∈ (ends format defaults events (.finish run)).map Ended.run ↔
      other = run ∧ Waits (submissions defaults events) run ∧
        run ∉ (play format defaults events).2.map Ended.run
  /-- A run raises what its submission raises alone, be it at its start or in the formatter. -/
  raises : ∀ e, ∀ ended ∈ ends format defaults events e, ∀ f, ended.outcome = .failed f ↔
    alone format (submissions defaults (events ++ [e])) ended.run = some (.error f)
  /-- A run without an exception commits if no later run has been started by then. -/
  commits : ∀ e, ∀ ended ∈ ends format defaults events e, ended.outcome = .committed ↔
    (∃ r, alone format (submissions defaults (events ++ [e])) ended.run = some (.ok r)) ∧
      ended.run + 1 = (submissions defaults (events ++ [e])).length
  discards : ∀ e, ∀ ended ∈ ends format defaults events e, ended.outcome = .discarded ↔
    (∃ r, alone format (submissions defaults (events ++ [e])) ended.run = some (.ok r)) ∧
      ended.run + 1 < (submissions defaults (events ++ [e])).length
  increasing : (committed (play format defaults events).2).Pairwise (· < ·)
  /-- The result stays unless a run commits. -/
  unchanged : ∀ e, (∀ ended ∈ ends format defaults events e, ended.outcome ≠ .committed) →
    (play format defaults (events ++ [e])).1.result = (play format defaults events).1.result
  idle : ∀ run ∈ (play format defaults events).2.map Ended.run,
    step format (play format defaults events).1 (.finish run) = ((play format defaults events).1, [])
  shows : Shows format defaults (submissions defaults events) (play format defaults events).2
    (play format defaults events).1.result
  /-- The newest run is shown once it has ended without an exception, until another run is started. -/
  newest : ∀ ended ∈ (play format defaults events).2,
    ended.run + 1 = (submissions defaults events).length → (∀ f, ended.outcome ≠ .failed f) →
    ∀ later, (∀ e ∈ later, ∃ run, e = .finish run) →
      alone format (submissions defaults events) ended.run =
        some (.ok (play format defaults (events ++ later)).1.result)

theorem ended_of_verdict {format : Format} {started : List (Text × SettingsObject)} {ended : Ended}
    (verdict : Verdict format started ended) :
    (∀ f, ended.outcome = .failed f ↔ alone format started ended.run = some (.error f)) ∧
    (ended.outcome = .committed ↔ (∃ r, alone format started ended.run = some (.ok r)) ∧
      ended.run + 1 = started.length) ∧
    (ended.outcome = .discarded ↔ (∃ r, alone format started ended.run = some (.ok r)) ∧
      ended.run + 1 < started.length) := by
  cases verdict with
  | failed run f raises => simp [raises]
  | committed run r gives newest => simp [gives, newest]
  | discarded run r gives overtaken => simp [gives, overtaken, Nat.ne_of_lt overtaken]

theorem log_subset (later : List Event) {ended : Ended}
    (member : ended ∈ (play format defaults events).2) :
    ended ∈ (play format defaults (events ++ later)).2 := by
  induction later using List.reverseRecOn with
  | nil => rwa [List.append_nil]
  | append_singleton later e ih =>
    rw [← List.append_assoc, play_append]
    exact List.mem_append_left _ ih

theorem submissions_finishes {later : List Event} (finishes : ∀ e ∈ later, ∃ run, e = .finish run) :
    submissions defaults later = [] := by
  refine List.filterMap_eq_nil_iff.2 fun e member => ?_
  obtain ⟨run, rfl⟩ := finishes e member
  rfl

theorem play_safe : Safe format defaults events := by
  have kept := play_invariant format defaults events
  have verdicts (e : Event) : ∀ ended ∈ ends format defaults events e,
      Verdict format (submissions defaults (events ++ [e])) ended := by
    rw [submissions_append]
    exact (kept.step e).2
  exact {
    endsOnce := kept.separate.2.1
    endsStarted := by
      intro t settings run
      rw [submissions_append, ends, step, kept.defaults_eq]
      exact mem_begin_runs kept.count t (settings.getD defaults)
    endsFinished := fun run other => kept.mem_finish_runs run other
    raises := fun e ended member => (ended_of_verdict (verdicts e ended member)).1
    commits := fun e ended member => (ended_of_verdict (verdicts e ended member)).2.1
    discards := fun e ended member => (ended_of_verdict (verdicts e ended member)).2.2
    increasing := kept.ordered
    unchanged := by
      intro e silent
      rw [play_append]
      exact step_result silent
    idle := by
      intro run ended
      rw [step, finish, kept.lookup_ended ended]
    shows := kept.shows
    newest := by
      intro ended member latest regular later finishes
      have extended := play_invariant format defaults (events ++ later)
      rw [submissions_append, submissions_finishes defaults finishes, List.append_nil] at extended
      exact extended.shows_newest (log_subset format defaults events later member) latest regular }

end

end JsonShape.Session
