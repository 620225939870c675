/-
**Results.**

Every test that was started has one result.  Results stand in the order of their codes, and results
of one code in the order in which the tests were given.

Main definitions:

* `Testbench.TestResult` — the result of one test;
* `Testbench.TestResult.ofOutput`, `Testbench.TestResult.dispatchFailure` — where results come from;
* `Testbench.ResultSet`, `Testbench.ResultSet.ofList` — results in order;
* `Testbench.Summary`, `Testbench.Report` — a whole run.

Main results:

* `Testbench.ResultSet.passed_add_failures` — every result passed or failed.
-/

import Testbench.Outcome
import Testbench.Path
import Testbench.Time.Moment
import Testbench.World.Fault

set_option relaxedAutoImplicit false
set_option autoImplicit false

namespace Testbench

/-- The result of one test. -/
structure TestResult where
  test : Path
  exitCode : Int
  output : String
  outcome : Outcome
  durationMs : Nat
deriving DecidableEq, Repr

namespace TestResult

/-- The result of a test whose program ran. -/
def ofOutput (test : Path) (o : Output) : TestResult where
  test
  exitCode := o.returnCode
  output := o.text
  outcome := o.outcome
  durationMs := o.duration.inMilliseconds

/-- The result of a test whose program could not be started. -/
def dispatchFailure (test : Path) (fault : Fault) : TestResult :=
  let reason := "failed to dispatch: " ++ fault.message
  { test
    exitCode := dispatchFailureCode
    output := reason ++ "\n"
    outcome := .crashOrTimeout reason
    durationMs := 0 }

end TestResult

/-- The results of a run. -/
structure ResultSet where
  results : List TestResult
deriving DecidableEq, Repr

namespace ResultSet

/-- Results in ascending order of their codes; equal codes keep the order they are given in. -/
def ofList (results : List TestResult) : ResultSet :=
  ⟨results.mergeSort fun a b => a.exitCode ≤ b.exitCode⟩

/-- The number of results. -/
def size (s : ResultSet) : Nat := s.results.length

/-- There are no results. -/
def isEmpty (s : ResultSet) : Bool := s.results.isEmpty

/-- The number of tests that passed. -/
def passed (s : ResultSet) : Nat := s.results.countP (·.outcome.isPass)

/-- The results that are no pass, in order. -/
def failures (s : ResultSet) : List TestResult := s.results.filter (!·.outcome.isPass)

/-- Every result passed or failed. -/
theorem passed_add_failures (s : ResultSet) : s.passed + s.failures.length = s.size := by
  rw [passed, failures, size, ← List.countP_eq_length_filter, Nat.add_comm]
  have := List.length_eq_countP_add_countP (fun r : TestResult => r.outcome.isPass) (l := s.results)
  simp only [Bool.not_eq_true] at this
  rw [this, Nat.add_comm]
  simp

end ResultSet

/-- The counters of a run. -/
structure Summary where
  /-- Tests that were started. -/
  dispatched : Nat
  passed : Nat
  failed : Nat
  /-- Tests that were never started because the run was interrupted. -/
  notRun : Nat
  durationMs : Nat
  interrupted : Option Bool
deriving DecidableEq, Repr

/-- All that a run has to tell. -/
structure Report where
  startedAt : Moment
  smoke : Option TestResult
  results : ResultSet
  summary : Summary
deriving DecidableEq, Repr

end Testbench
