/-
**A session, step by step.**

A session either ends early, because its tests cannot be resolved or its gate does not open, or it
runs the smoke test and then its tests.  The steps are taken apart here once: each has the scene in
which it begins, and what a session comes to is said in terms of its steps.

Main definitions:

* `Testbench.Session` — all that a run depends on;
* `Testbench.Session.announced`, `Testbench.Session.gate`, `Testbench.Session.smoke`,
  `Testbench.Session.batch`, `Testbench.Session.closing` — the steps of a session;
* `Testbench.Session.report` — what a session hands back when it succeeds.

Main results:

* `Testbench.Session.result_eq` — **what a session comes to**;
* `Testbench.Session.result_eq_ok_iff` — when a session succeeds, and with which report.
-/

import Testbench.Proofs.Frames
import Testbench.Proofs.Turns

set_option relaxedAutoImplicit false
set_option autoImplicit false

namespace Testbench

/-! ### Resolving and announcing -/

/-- The scene when the tests of a configuration are resolved. -/
def Scene.afterResolving (s : Scene) (c : Config) (tests : List Path) : Scene :=
  s.add (.notice .debug "simharness::corpus"
    ("resolved " ++ Decimal.ofNat tests.length ++ " test programs from " ++
      Decimal.ofNat c.patterns.length ++ " patterns"))

theorem run_resolveTests (c : Config) (s : Scene) :
    (resolveTests c).run.run s =
      match c.resolveCorpus s.disk with
      | .error failure => (.error failure, s)
      | .ok tests => (.ok tests, s.afterResolving c tests) := by
  have hget : (ExceptT.mk (do return c.resolveCorpus (← get).disk : Flow _)).run.run s =
      (c.resolveCorpus s.disk, s) := rfl
  rw [resolveTests, run_work_bind, hget]
  cases c.resolveCorpus s.disk <;> rfl

/-- The line that tells the number of the tests. -/
def countLine (tests : List Path) : Event :=
  .status ("Total Test Count: " ++ Decimal.ofNat tests.length ++ "\n")

theorem trace_announce (c : Config) (r : RunRequest) (tests : List Path) (s : Scene) :
    ((announce c r tests).run s).2.trace = s.trace ++
      .notice .info "simharness::harness"
        ("resolved " ++ Decimal.ofNat tests.length ++ " tests under " ++ c.root.text) ::
      countLine tests ::
      if r.skipBuild then [.notice .info "simharness::harness" "build gate skipped"] else [] := by
  rw [announce]
  cases r.skipBuild with
  | true => exact (List.append_assoc ..).trans (List.append_assoc ..)
  | false => exact List.append_assoc ..

/-! ### Sessions -/

/-- All that a run depends on. -/
structure Session where
  machine : Machine
  config : Config
  request : RunRequest
  scene : Scene

namespace Session

variable (S : Session)

/-- Running a session. -/
def result : Except Failure Report × Scene :=
  (runSession S.machine S.config S.request).run.run S.scene

/-- The tests of a session. -/
def tests? : Except Failure (List Path) := S.config.resolveCorpus S.scene.disk

/-! ### Steps -/

/-- The notices about the tests that are resolved. -/
def resolvedNotices (tests : List Path) : List Event :=
  [.notice .debug "simharness::corpus"
    ("resolved " ++ Decimal.ofNat tests.length ++ " test programs from " ++
      Decimal.ofNat S.config.patterns.length ++ " patterns"),
    .notice .info "simharness::harness"
      ("resolved " ++ Decimal.ofNat tests.length ++ " tests under " ++ S.config.root.text)]

/-- The scene when the number of the tests was shown. -/
def announced (tests : List Path) : Scene :=
  ((announce S.config S.request tests).run (S.scene.afterResolving S.config tests)).2

/-- Passing the gate. -/
def gate (tests : List Path) : Except Failure Unit × Scene :=
  (passBuildGate S.machine S.config S.request).run.run (S.announced tests)

/-- Running the smoke test. -/
def smoke (tests : List Path) : Option TestResult × Scene :=
  (runSmoke S.machine S.config S.request).run (S.gate tests).2

/-- Running the tests. -/
def batch (tests : List Path) : Batch Progress where
  machine := S.machine
  tests
  simulator := S.config.simulator
  options :=
    { jobs := S.config.jobs
      timeout := S.config.timeout
      interrupted := S.request.interrupted }
  observe := countResult
  seen := { enabled := S.request.showProgress, total := tests.length }
  scene := (S.smoke tests).2

/-- The scene when the tests are run and the progress line is drawn for the last time. -/
def closing (tests : List Path) : Scene :=
  ((draw (S.batch tests).result.1.2.finish.1).run (S.batch tests).result.2).2

/-- What a session hands back when it succeeds. -/
def report (tests : List Path) : Report where
  startedAt := S.machine.startedAt
  smoke := (S.smoke tests).1
  results := .ofList (S.batch tests).result.1.1.results
  summary := summaryOf (S.batch tests).result.1.1
    ⟨(S.closing tests).elapsed.nanoseconds - S.scene.elapsed.nanoseconds⟩

/-! ### All steps -/

/-- What is left of a session when its tests are resolved. -/
def rest (tests : List Path) : Except Failure Report × Scene :=
  match (S.gate tests).1 with
  | .error failure => (.error failure, (S.gate tests).2)
  | .ok _ => (.ok (S.report tests), S.closing tests)

/-- **What a session comes to.** -/
theorem result_eq : S.result =
    match S.tests? with
    | .error failure => (.error failure, S.scene)
    | .ok tests => S.rest tests := by
  rw [result, runSession, run_work_get, run_work_bind, run_resolveTests, tests?]
  cases S.config.resolveCorpus S.scene.disk with
  | error failure => rfl
  | ok tests =>
      -- telling the number of the tests cannot fail, so that the gate is the next step that can
      refine (run_work_bind (passBuildGate S.machine S.config S.request) _
        (S.announced tests)).trans ?_
      change _ = S.rest tests
      rw [rest, gate]
      cases ((passBuildGate S.machine S.config S.request).run.run (S.announced tests)).1 <;> rfl

/-- **A session succeeds** if its tests are resolved and its gate opens. -/
theorem result_eq_ok_iff {report : Report} {s' : Scene} :
    S.result = (.ok report, s') ↔
      ∃ tests, S.tests? = .ok tests ∧ (S.gate tests).1 = .ok () ∧
        report = S.report tests ∧ s' = S.closing tests := by
  rw [result_eq]
  constructor
  · intro h
    cases htests : S.tests? with
    | error failure => rw [htests] at h; cases h
    | ok tests =>
        rw [htests] at h
        change S.rest tests = _ at h
        rw [rest] at h
        cases hgate : (S.gate tests).1 with
        | error failure => rw [hgate] at h; cases h
        | ok opened =>
            rw [hgate] at h
            cases h
            exact ⟨tests, rfl, hgate, rfl, rfl⟩
  · rintro ⟨tests, htests, hgate, rfl, rfl⟩
    rw [htests]
    change S.rest tests = _
    rw [rest, hgate]

/-! ### The trace -/

variable (tests : List Path)

/-- The number of the tests is the first thing that is shown. -/
theorem trace_announced : ∃ rest, (S.announced tests).trace =
    S.scene.trace ++ S.resolvedNotices tests ++ countLine tests :: rest := by
  rw [announced, trace_announce, Scene.afterResolving, Scene.add_trace, List.append_assoc]
  exact ⟨_, (List.append_assoc S.scene.trace (S.resolvedNotices tests) (_ :: _)).symm⟩

theorem mem_resolvedNotices {e : Event} (h : e ∈ S.resolvedNotices tests) :
    ∃ level origin text, e = .notice level origin text := by
  rcases List.mem_cons.1 h with rfl | h
  · exact ⟨_, _, _, rfl⟩
  · rw [List.mem_singleton.1 h]
    exact ⟨_, _, _, rfl⟩

/-- What was shown before the gate stays in the trace. -/
theorem keeps_announced : (S.announced tests).trace <+: (S.closing tests).trace := by
  have hgate : (S.announced tests).trace <+: (S.gate tests).2.trace :=
    (framed_passBuildGate ..).keeps_trace _
  have hsmoke : (S.gate tests).2.trace <+: (S.smoke tests).2.trace :=
    (framed_runSmoke ..).keeps_trace _
  have hbatch : (S.smoke tests).2.trace <+: (S.batch tests).result.2.trace :=
    (framed_runTests framed_countResult ..).keeps_trace _
  have hclosing : (S.batch tests).result.2.trace <+: (S.closing tests).trace :=
    (framed_draw _).keeps_trace _
  exact ((hgate.trans hsmoke).trans hbatch).trans hclosing

end Session

end Testbench
