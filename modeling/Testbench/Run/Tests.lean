/-
**Running tests.**

Tests run at the same time on a number of workers.  When a worker takes up a test it looks whether
the run was interrupted; if so the test is skipped, else it runs to its end.  What became of a test
is noted later, in any order.  Results are kept by the number of their test, so that they come out
in the order in which the tests were given.

Main definitions:

* `Testbench.runTest` — one test;
* `Testbench.Pool`, `Testbench.Pool.turn` — tests at work;
* `Testbench.RunOutcome`, `Testbench.runTests` — all tests.

The workers are there when they are needed.  A run that ends because they cannot be started is left
out, and with it the failure that says so.
-/

import Testbench.Report.Result
import Testbench.Run.Execute

set_option relaxedAutoImplicit false
set_option autoImplicit false

namespace Testbench

/-! ### One test -/

/-- What becomes known of a test. -/
def testResult (test : Path) (result : Except Fault Output) : TestResult :=
  match result with
  | .ok output => .ofOutput test output
  | .error fault => .dispatchFailure test fault

/-- The notice about a test that was run. -/
def testNotice (test : Path) (result : Except Fault Output) : Level × String :=
  match result with
  | .ok output => (.debug, test.text ++ " finished with " ++ Decimal.ofInt output.returnCode)
  | .error fault => (.warn, "could not dispatch " ++ test.text ++ ": " ++ fault.message)

/-- Runs one test.  A test that cannot be started has a result like any other. -/
def runTest (m : Machine) (simulator : Simulator) (options : ExecOptions) (test : Path) :
    Flow TestResult := do
  let result ← execute m (simulator.commandFor test) options
  let (level, text) := testNotice test result
  note level "simharness::runner" text
  return testResult test result

/-! ### Tests at work -/

/-- What became of a test that a worker took up: its result, or nothing if it was skipped. -/
abbrev Message := Option TestResult

/-- Tests at work. -/
structure Pool where
  /-- The run was interrupted. -/
  interrupted : Bool
  /-- What became of tests and is not noted yet, with their numbers. -/
  mail : List (Nat × Message) := []
  /-- A place for the result of every test. -/
  slots : List Message
  /-- Tests that were skipped. -/
  notRun : Nat := 0
deriving DecidableEq, Repr

namespace Pool

/-- Tests before any of them starts. -/
def ofCount (interrupted : Bool) (count : Nat) : Pool :=
  { interrupted, slots := List.replicate count none }

/-- The message about a test, and the mail without it. -/
def take (index : Nat) : List (Nat × Message) → Option (Message × List (Nat × Message))
  | [] => none
  | (i, message) :: rest =>
      if i = index then some (message, rest)
      else (take index rest).map fun (found, rest) => (found, (i, message) :: rest)

/-- Notes a message in the place of its test. -/
def store (p : Pool) (index : Nat) (message : Message) : Pool :=
  match message with
  | none => { p with notRun := p.notRun + 1 }
  | some r => { p with slots := p.slots.set index (some r) }

/-- One turn: a worker takes up a test, or a message is noted, or the run is interrupted.  Every
result that is noted is shown to an observer, who keeps a state of type `α`. -/
def turn {α : Type} (tests : List Path) (run : Path → Flow TestResult)
    (observe : α → TestResult → Flow α) (s : Pool × α) : Turn → Flow (Pool × α)
  | .interrupt => return ({ s.1 with interrupted := true }, s.2)
  | .start index =>
      match tests[index]? with
      | none => return s
      | some test => do
          if s.1.interrupted then
            return ({ s.1 with mail := s.1.mail ++ [(index, none)] }, s.2)
          let r ← run test
          return ({ s.1 with mail := s.1.mail ++ [(index, some r)] }, s.2)
  | .deliver index =>
      match take index s.1.mail with
      | none => return s
      | some (none, mail) => return ({ s.1 with mail }.store index none, s.2)
      | some (some r, mail) => do
          let seen ← observe s.2 r
          return ({ s.1 with mail }.store index (some r), seen)

end Pool

/-! ### All tests -/

/-- What became of the tests of a run. -/
structure RunOutcome where
  /-- The results of the tests that were started, in the order of the tests. -/
  results : List TestResult := []
  /-- The number of tests that were never started. -/
  notRun : Nat := 0
  interrupted : Bool := false
deriving DecidableEq, Repr

/-- What tests at work come to. -/
def Pool.outcome (p : Pool) : RunOutcome :=
  { results := p.slots.filterMap id, notRun := p.notRun, interrupted := p.interrupted }

/-- How tests are run. -/
structure RunOptions where
  jobs : Nat := 0
  timeout : Option Span := none
  /-- The run was interrupted before it began. -/
  interrupted : Bool := false
deriving DecidableEq, Repr

/-- Runs all tests.  Every result is shown to the observer when it is noted.  Without tests
nothing is looked at, not even whether the run was interrupted.  The workers can always be
started. -/
def runTests {α : Type} (m : Machine) (tests : List Path) (simulator : Simulator)
    (options : RunOptions) (observe : α → TestResult → Flow α) (seen : α) :
    Flow (RunOutcome × α) := do
  if tests.isEmpty then return ({}, seen)
  note .debug "simharness::runner"
    ("dispatching " ++ Decimal.ofNat tests.length ++ " tests on " ++
      Decimal.ofNat (m.workers options.jobs) ++ " workers")
  let run := runTest m simulator { timeout := options.timeout }
  let (pool, seen) ← (m.schedule (m.workers options.jobs) tests.length).foldlM
    (Pool.turn tests run observe) (Pool.ofCount options.interrupted tests.length, seen)
  return (pool.outcome, seen)

end Testbench
