import JsonShape.Conversion

/-! Sessions of a converter.

A converter is given new texts while earlier runs may still wait for the formatter. Runs are numbered as
they start, and a run commits its result when it ends unless a later run has been started by then. So the
result shown is never replaced by that of an older text.
-/

set_option autoImplicit false

namespace JsonShape

structure Session where
  defaults : SettingsObject
  result : Result
  /-- Runs started so far; the next one has this number. -/
  started : Nat
  waiting : List (Nat × FormatterOptions × Result)

namespace Session

inductive Event where
  | start (t : Text) (settings : Option SettingsObject)
  | finish (run : Nat)

inductive Outcome where
  | committed
  | discarded
  | failed (f : Failure)

structure Ended where
  run : Nat
  outcome : Outcome

def initial (defaults : SettingsObject) : Session where
  defaults := defaults
  result := { rootName := defaults.rootName }
  started := 0
  waiting := []

/-- A run ends with a result, which is kept if no later run was started, or with an exception. -/
def settle (s : Session) (run : Nat) : Except Failure Result → Session × List Ended
  | .error f => (s, [⟨run, .failed f⟩])
  | .ok r =>
    if run + 1 = s.started then ({ s with result := r }, [⟨run, .committed⟩])
    else (s, [⟨run, .discarded⟩])

def begin (s : Session) (t : Text) (settings : SettingsObject) : Session × List Ended :=
  let run := s.started
  let s := { s with started := run + 1 }
  match Conversion.start settings t with
  | .error f => s.settle run (.error f)
  | .ok (.done r) => s.settle run (.ok r)
  | .ok (.formatting o r) => ({ s with waiting := s.waiting ++ [(run, o, r)] }, [])

/-- The formatter is done with a run. Nothing happens for a run that is not waiting. -/
def finish (format : Format) (s : Session) (run : Nat) : Session × List Ended :=
  match s.waiting.lookup run with
  | none => (s, [])
  | some (o, r) =>
    { s with waiting := s.waiting.filter (·.1 ≠ run) }.settle run
      (Progressed.finish format (.formatting o r))

def step (format : Format) (s : Session) : Event → Session × List Ended
  | .start t settings => s.begin t (settings.getD s.defaults)
  | .finish run => finish format s run

end Session

end JsonShape
