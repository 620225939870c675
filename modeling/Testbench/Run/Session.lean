/-
**A whole run.**

A run resolves its tests, passes the build gate, runs the smoke test alone and shows all that it
printed, runs the tests, and hands back a report.  A test that fails is part of the report; a run
fails only if its configuration makes no sense or the gate does not open.

Main definitions:

* `Testbench.RunRequest` — what is asked of one run and not part of its configuration;
* `Testbench.Config.resolveCorpus` — the tests of a configuration;
* `Testbench.announce`, `Testbench.passBuildGate`, `Testbench.runSmoke`, `Testbench.runCorpus` — the
  steps of a run;
* `Testbench.runSession` — the run.
-/

import Testbench.Corpus.Resolve
import Testbench.Report.Progress
import Testbench.Report.Text
import Testbench.Run.Build
import Testbench.Run.Tests

set_option relaxedAutoImplicit false
set_option autoImplicit false

namespace Testbench

/-- What is asked of one run and not part of its configuration. -/
structure RunRequest where
  /-- The configure step of a release runs before the build. -/
  release : Bool := false
  skipBuild : Bool := false
  /-- The output of gates is shown as it arrives. -/
  echoBuild : Bool := false
  /-- The output of the smoke test is shown as it arrives. -/
  echoSmoke : Bool := false
  showProgress : Bool := false
  /-- The run was interrupted before its tests began. -/
  interrupted : Bool := false
deriving DecidableEq, Repr

/-! ### Tests -/

namespace Config

/-- What a configuration asks for as tests. -/
def query (c : Config) : Corpus.Query where
  root := c.root
  patterns := c.patterns
  skip := c.skip
  excludedSuffixes := c.excludedSuffixes

/-- Some pattern, as it is written, is taken from the root. -/
def usesRoot (c : Config) : Bool := c.patterns.any fun p => !(Path.mk p).isAbsolute

/-- The **tests of a configuration**.  The root has to be a directory if it is used. -/
def resolveCorpus (c : Config) (d : Disk) : Except Failure (List Path) :=
  if c.usesRoot && !d.isDirectory c.root then
    .error (.badConfig
      ("test root does not exist or is not a directory: " ++ c.root.text))
  else c.query.resolve d

end Config

/-- Resolves the tests of a configuration. -/
def resolveTests (c : Config) : Work (List Path) := do
  let tests ← ExceptT.mk (do return c.resolveCorpus (← get).disk)
  note .debug "simharness::corpus"
    ("resolved " ++ Decimal.ofNat tests.length ++ " test programs from " ++
      Decimal.ofNat c.patterns.length ++ " patterns")
  return tests

/-- Tells how many tests there are, and that the gate is skipped if it is.  What is told can always
be written. -/
def announce (c : Config) (r : RunRequest) (tests : List Path) : Flow Unit := do
  note .info "simharness::harness"
    ("resolved " ++ Decimal.ofNat tests.length ++ " tests under " ++ c.root.text)
  showLine ("Total Test Count: " ++ Decimal.ofNat tests.length)
  if r.skipBuild then note .info "simharness::harness" "build gate skipped"

/-! ### Gate and smoke test -/

/-- Passes the build gate, if there is one and it is not skipped. -/
def passBuildGate (m : Machine) (c : Config) (r : RunRequest) : Work Unit := do
  if r.skipBuild then return ()
  match c.build with
  | none => return ()
  | some spec =>
      let _ ← buildSimulator m spec r.release r.echoBuild
      showLine "Build Success!"

/-- Runs the smoke test, if there is one, and shows all that it printed. -/
def runSmoke (m : Machine) (c : Config) (r : RunRequest) : Flow (Option TestResult) := do
  match c.smokePath with
  | none => return none
  | some test =>
      note .info "simharness::harness" ("running smoke test " ++ test.text)
      let result ← runTest m c.simulator { echo := r.echoSmoke, timeout := c.timeout } test
      emit (.status (result.smokeText c.reportPaths))
      return some result

/-! ### Tests with a progress line -/

/-- Draws the progress line; one that is switched off draws nothing. -/
def draw (text : String) : Flow Unit := if text = "" then pure () else emit (.progress text)

/-- Counts a result on the progress line. -/
def countResult (p : Progress) (r : TestResult) : Flow Progress := do
  let (text, p) := p.record r
  draw text
  return p

/-- Runs the tests with a progress line. -/
def runCorpus (m : Machine) (c : Config) (r : RunRequest) (tests : List Path) :
    Flow RunOutcome := do
  let (outcome, progress) ← runTests m tests c.simulator
    { jobs := c.jobs, timeout := c.timeout, interrupted := r.interrupted }
    countResult { enabled := r.showProgress, total := tests.length }
  draw progress.finish.1
  return outcome

/-! ### The run -/

/-- The counters of a run. -/
def summaryOf (outcome : RunOutcome) (duration : Span) : Summary :=
  let results := ResultSet.ofList outcome.results
  { dispatched := results.size
    passed := results.passed
    failed := results.size - results.passed
    notRun := outcome.notRun
    durationMs := duration.inMilliseconds
    interrupted := if outcome.interrupted then some true else none }

/-- Runs a configuration. -/
def runSession (m : Machine) (c : Config) (r : RunRequest) : Work Report := do
  let before := (← get).elapsed
  let tests ← resolveTests c
  announce c r tests
  passBuildGate m c r
  let smoke ← runSmoke m c r
  let outcome ← runCorpus m c r tests
  let duration : Span := ⟨(← get).elapsed.nanoseconds - before.nanoseconds⟩
  return {
    startedAt := m.startedAt
    smoke
    results := ResultSet.ofList outcome.results
    summary := summaryOf outcome duration }

end Testbench
