import JsonShape.Settings
import JsonShape.Text.Bytes

/-! The external formatter.

The formatter is a program that may be missing. It is looked for and asked for its version once, before
its first use, and its availability is remembered. A document goes to its standard input, and comes back
unchanged unless the program ends well. Where a program cannot be talked with, an exception is let through,
and then nothing is remembered.
-/

set_option autoImplicit false

namespace JsonShape

open Json (Value)

/-- Why a program could not be talked with. -/
inductive ProcessFault where
  /-- What the program wrote is no text. -/
  | undecodable (fault : Utf8Fault)
  /-- The text for the program cannot be encoded. -/
  | unencodable
  | unusableTimeout
  | nullInCommand

inductive ProcessEnd where
  | exited (code : Int) (output : Text)
  | timedOut
  | notStarted
  | raised (fault : ProcessFault)

inductive Call where
  | find (program : Text)
  | run (command : List Text) (input : Option Text) (timeout : Value)

/-- A machine: whether programs can be found on it, how the next ones end, and what was asked of it.
When nothing more is known about programs they cannot be started. -/
structure Machine where
  findsPrograms : Bool
  endings : List ProcessEnd
  calls : List Call := []

namespace Machine

def find (m : Machine) (program : Text) : Bool × Machine :=
  (m.findsPrograms, { m with calls := m.calls ++ [.find program] })

def run (m : Machine) (command : List Text) (input : Option Text) (timeout : Value) :
    ProcessEnd × Machine :=
  (m.endings.headD .notStarted,
    { m with endings := m.endings.tail, calls := m.calls ++ [.run command input timeout] })

end Machine

structure Formatter where
  executable : Text := "prettier"
  available : Option Bool := none

namespace Formatter

def versionTimeout : Value := .number (.integer 5)

def endedWell : ProcessEnd → Except ProcessFault Bool
  | .exited code _ => .ok (code = 0)
  | .timedOut | .notStarted => .ok false
  | .raised fault => .error fault

def probe (executable : Text) (m : Machine) : Except ProcessFault Bool × Machine :=
  let (found, m) := m.find executable
  if found then
    let (ending, m) := m.run [executable, "--version"] none versionTimeout
    (endedWell ending, m)
  else (.ok false, m)

def isAvailable (f : Formatter) (m : Machine) : Except ProcessFault Bool × Formatter × Machine :=
  match f.available with
  | some known => (.ok known, f, m)
  | none =>
    let (answer, m) := probe f.executable m
    (answer, { f with available := answer.toOption }, m)

def command (f : Formatter) (o : FormatterOptions) : List Text :=
  [f.executable, "--parser", "typescript", "--print-width", o.printWidth.plain,
    "--tab-width", o.tabWidth.plain, "--trailing-comma", "all", "--no-single-quote", "--semi"]

def formatted (code : Text) : ProcessEnd → Except ProcessFault Text
  | .exited 0 output => .ok output
  | .exited _ _ | .timedOut | .notStarted => .ok code
  | .raised fault => .error fault

def format (f : Formatter) (code : Text) (o : FormatterOptions) (m : Machine) :
    Except ProcessFault Text × Formatter × Machine :=
  match f.isAvailable m with
  | (.error fault, f, m) => (.error fault, f, m)
  | (.ok false, f, m) => (.ok code, f, m)
  | (.ok true, f, m) =>
    let (ending, m) := m.run (f.command o) (some code) o.timeout
    (formatted code ending, f, m)

def formatOnce (code : Text) (printWidth : Value) (m : Machine) : Except ProcessFault Text × Machine :=
  let (formatted, _, m) := format {} code { enabled := .bool true, printWidth } m
  (formatted, m)

end Formatter

end JsonShape
