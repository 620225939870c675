/-
**What a report counts.**

The report of a session lists the results of its tests in the order of their codes and, for one
code, in the order of the paths.  Its counters are those of the results that it lists, and together
with the tests that were left out they are the number that was shown at the start.  The smoke test
is not among them: a session without it counts the same.

Main definitions:

* `Testbench.Report.Ordered`, `Testbench.Report.Accounts` — the order and the counters of a report;
* `Testbench.Report.SameTests` — two reports list and count the same tests;
* `Testbench.Session.withoutSmoke` — a session without its smoke test.

Main results:

* `Testbench.Session.ordered_report` — the results stand in a strict order;
* `Testbench.Session.accounts_report` — the counters add up;
* `Testbench.Session.sameTests_withoutSmoke`, `Testbench.Session.report_withoutSmoke` — the smoke
  test counts for nothing;
* `Testbench.Session.report_counts_tests` — **the order and the counters of a whole run**.
-/

import Mathlib.Data.List.Perm.Subperm
import Testbench.Proofs.Aggregation
import Testbench.Proofs.Resolution
import Testbench.Proofs.ResultOrder
import Testbench.Proofs.Sessions

set_option relaxedAutoImplicit false
set_option autoImplicit false

namespace Testbench

/-- The tests of a configuration stand in strictly ascending order. -/
theorem Config.ascending_of_resolveCorpus {c : Config} {d : Disk} {tests : List Path}
    (h : c.resolveCorpus d = .ok tests) : Corpus.Ascending tests := by
  rw [resolveCorpus] at h
  split at h
  · cases h
  · rw [Corpus.resolveIn_eq_ok h]
    exact Corpus.ascending_distinct _

namespace Report

/-- The results of a report **stand in a strict order**, which they alone fix: a test occurs once.
-/
structure Ordered (report : Report) : Prop where
  pairwise : report.results.results.Pairwise TestResult.Before
  nodup : (report.results.results.map (·.test.parts)).Nodup
  unique : ∀ results : List TestResult, results.Perm report.results.results →
    results.Pairwise TestResult.Before → results = report.results.results

/-- The **counters of a report add up**: they are those of the results that it lists, and with the
tests that were left out they are so many. -/
structure Accounts (report : Report) (count : Nat) : Prop where
  dispatched : report.summary.dispatched = report.results.size
  passed : report.summary.passed = report.results.results.countP (·.outcome.isPass)
  passed_add_failed : report.summary.passed + report.summary.failed = report.summary.dispatched
  failed : report.summary.failed = report.results.failures.length
  dispatched_add_notRun : report.summary.dispatched + report.summary.notRun = count

/-- Two reports list and count the same tests. -/
structure SameTests (a b : Report) : Prop where
  tests : (a.results.results.map (·.test)).Perm (b.results.results.map (·.test))
  dispatched : a.summary.dispatched = b.summary.dispatched
  notRun : a.summary.notRun = b.summary.notRun

end Report

namespace Session

variable {S : Session} {tests : List Path}

theorem complete_batch (hm : S.machine.RunsEach) (tests : List Path) : (S.batch tests).Complete :=
  hm _ _

/-! ### Order -/

/-- The results that a report lists are those of the tests. -/
theorem results_report_perm (S : Session) (tests : List Path) :
    (S.report tests).results.results.Perm (S.batch tests).result.1.1.results :=
  ResultSet.ofList_perm _

/-- The tests of the results come in ascending order from the batch. -/
theorem ascending_results (hm : S.machine.RunsEach) (htests : S.tests? = .ok tests) :
    Corpus.Ascending ((S.batch tests).result.1.1.results.map (·.test)) :=
  (Config.ascending_of_resolveCorpus htests).sublist
    (Batch.map_test_results_sublist (complete_batch hm tests))

theorem ordered_report (hm : S.machine.RunsEach) (htests : S.tests? = .ok tests) :
    (S.report tests).Ordered where
  pairwise := ResultSet.pairwise_before (ascending_results hm htests)
  nodup := by
    have hnodup := (ascending_results hm htests).nodup_parts
    rw [List.map_map] at hnodup
    exact ((results_report_perm S tests).map _).nodup_iff.2 hnodup
  unique := by
    intro results hperm hpairwise
    exact TestResult.Before.eq_of_perm hpairwise
      (ResultSet.pairwise_before (ascending_results hm htests)) hperm

/-- Every test that is listed is one of the session, listed once. -/
theorem tests_report_subperm (hm : S.machine.RunsEach) (tests : List Path) :
    ((S.report tests).results.results.map (·.test)).Subperm tests := by
  have hperm := (results_report_perm S tests).map (·.test)
  exact hperm.subperm.trans
    (Batch.map_test_results_sublist (complete_batch hm tests)).subperm

/-- Without an interrupt all tests are listed. -/
theorem tests_report_perm (hm : S.machine.RunsEach) (hu : (S.batch tests).Uninterrupted) :
    ((S.report tests).results.results.map (·.test)).Perm tests := by
  have hperm := (results_report_perm S tests).map (·.test)
  rwa [Batch.map_test_results_of_uninterrupted (complete_batch hm tests) hu] at hperm

/-! ### Counters -/

theorem accounts_report (hm : S.machine.RunsEach) (tests : List Path) :
    (S.report tests).Accounts tests.length where
  dispatched := rfl
  passed := rfl
  passed_add_failed := by
    have hle : (S.report tests).results.passed ≤ (S.report tests).results.size :=
      List.countP_le_length
    exact Nat.add_sub_cancel' hle
  failed := by
    have hsum := (S.report tests).results.passed_add_failures
    change (S.report tests).results.size - (S.report tests).results.passed = _
    omega
  dispatched_add_notRun := by
    have hsum := Batch.length_results_add_notRun (complete_batch hm tests)
    change (ResultSet.ofList (S.batch tests).result.1.1.results).size +
      (S.batch tests).result.1.1.notRun = tests.length
    rw [ResultSet.size_ofList]
    exact hsum

/-- The number that was shown at the start, before anything else. -/
theorem trace_closing (S : Session) (tests : List Path) :
    ∃ rest, (S.closing tests).trace =
      S.scene.trace ++ S.resolvedNotices tests ++ countLine tests :: rest := by
  obtain ⟨later, hlater⟩ := S.keeps_announced tests
  obtain ⟨rest, hrest⟩ := S.trace_announced tests
  refine ⟨rest ++ later, ?_⟩
  rw [← hlater, hrest, List.append_assoc, List.cons_append]

/-! ### The smoke test -/

/-- A session without its smoke test. -/
def withoutSmoke (S : Session) : Session := { S with config := { S.config with smoke := none } }

theorem gate_withoutSmoke (S : Session) (tests : List Path) :
    S.withoutSmoke.gate tests = S.gate tests := rfl

theorem smoke_withoutSmoke (S : Session) (tests : List Path) :
    S.withoutSmoke.smoke tests = (none, (S.gate tests).2) := rfl

/-- Which tests are run does not depend on what the smoke test did. -/
theorem map_test_withoutSmoke (hm : S.machine.RunsEach) (tests : List Path) :
    (S.withoutSmoke.batch tests).result.1.1.results.map (·.test) =
      (S.batch tests).result.1.1.results.map (·.test) := by
  have hm' : S.withoutSmoke.machine.RunsEach := hm
  rw [Batch.map_test_results (complete_batch hm tests),
    Batch.map_test_results (complete_batch hm' tests)]
  rfl

theorem sameTests_withoutSmoke (hm : S.machine.RunsEach) (tests : List Path) :
    (S.withoutSmoke.report tests).SameTests (S.report tests) := by
  have hm' : S.withoutSmoke.machine.RunsEach := hm
  have htests : ((S.withoutSmoke.report tests).results.results.map (·.test)).Perm
      ((S.report tests).results.results.map (·.test)) := by
    refine ((results_report_perm S.withoutSmoke tests).map _).trans ?_
    rw [map_test_withoutSmoke hm]
    exact ((results_report_perm S tests).map _).symm
  have hdispatched : (S.withoutSmoke.report tests).summary.dispatched =
      (S.report tests).summary.dispatched := by
    have hlength := htests.length_eq
    rwa [List.length_map, List.length_map] at hlength
  have hsum := (accounts_report hm tests).dispatched_add_notRun
  have hsum' := (accounts_report hm' tests).dispatched_add_notRun
  exact ⟨htests, hdispatched, by omega⟩

/-- A smoke test that leaves the disk as it was changes nothing for the tests. -/
theorem result_withoutSmoke (h : (S.smoke tests).2.disk = (S.gate tests).2.disk) :
    (S.withoutSmoke.batch tests).result.1 = (S.batch tests).result.1 :=
  (framed_runTests framed_countResult S.machine tests S.config.simulator
    (S.batch tests).options (S.batch tests).seen).value_eq h.symm

theorem report_withoutSmoke (h : (S.smoke tests).2.disk = (S.gate tests).2.disk) :
    (S.withoutSmoke.report tests).results = (S.report tests).results ∧
      (S.withoutSmoke.report tests).summary.passed = (S.report tests).summary.passed ∧
      (S.withoutSmoke.report tests).summary.failed = (S.report tests).summary.failed := by
  have hresults : (S.withoutSmoke.report tests).results = (S.report tests).results :=
    congrArg (fun r : RunOutcome × Progress => ResultSet.ofList r.1.results)
      (result_withoutSmoke h)
  refine ⟨hresults, congrArg ResultSet.passed hresults, ?_⟩
  exact congrArg (fun r : ResultSet => r.size - r.passed) hresults

/-! ### A whole run -/

/-- **The order and the counters of a whole run**, whatever the order in which its tests are taken
up and noted.  The results stand in a strict order and are those of the resolved tests, all of them
unless the run is interrupted.  The counters are those of the results and add up to the number that
was shown before anything else.  The smoke test is in none of them: without it a session succeeds as
well and counts the same tests, with the same results if the smoke test leaves the disk as it was.
-/
theorem report_counts_tests {report : Report} {s' : Scene} (hm : S.machine.RunsEach)
    (h : S.result = (.ok report, s')) :
    ∃ tests, S.tests? = .ok tests ∧ report.Ordered ∧
      report.results.results.Perm (S.batch tests).result.1.1.results ∧
      (report.results.results.map (·.test)).Subperm tests ∧
      ((S.batch tests).Uninterrupted → (report.results.results.map (·.test)).Perm tests) ∧
      report.Accounts tests.length ∧
      (∃ notices rest, s'.trace = S.scene.trace ++ notices ++
          .status ("Total Test Count: " ++
            Decimal.ofNat (report.summary.dispatched + report.summary.notRun) ++ "\n") :: rest ∧
        ∀ e ∈ notices, ∃ level origin text, e = .notice level origin text) ∧
      ∃ report₀ s₀, S.withoutSmoke.result = (.ok report₀, s₀) ∧ report₀.smoke = none ∧
        report₀.SameTests report ∧
        ((S.smoke tests).2.disk = (S.gate tests).2.disk → report₀.results = report.results ∧
          report₀.summary.passed = report.summary.passed ∧
          report₀.summary.failed = report.summary.failed) := by
  obtain ⟨tests, htests, hgate, rfl, rfl⟩ := S.result_eq_ok_iff.1 h
  refine ⟨tests, htests, ordered_report hm htests, results_report_perm S tests,
    tests_report_subperm hm tests, tests_report_perm hm, accounts_report hm tests, ?_, ?_⟩
  · -- the number that was shown is that of the tests, each of which was run or left out
    obtain ⟨rest, hrest⟩ := trace_closing S tests
    refine ⟨S.resolvedNotices tests, rest, ?_, fun e he => S.mem_resolvedNotices tests he⟩
    rw [hrest, (accounts_report hm tests).dispatched_add_notRun]
    rfl
  · -- up to the gate the two sessions do the same
    have hresult : S.withoutSmoke.result =
        (.ok (S.withoutSmoke.report tests), S.withoutSmoke.closing tests) :=
      S.withoutSmoke.result_eq_ok_iff.2
        ⟨tests, htests, (congrArg Prod.fst (S.gate_withoutSmoke tests)).trans hgate, rfl, rfl⟩
    have hnone : (S.withoutSmoke.report tests).smoke = none :=
      congrArg Prod.fst (S.smoke_withoutSmoke tests)
    exact ⟨_, _, hresult, hnone, sameTests_withoutSmoke hm tests, report_withoutSmoke⟩

/-- A machine that notes the second of two tests first. -/
def hasty : Machine where
  launch disk command := .ok
    { directory := [], writes := [], endsAt := ⟨1⟩, goneAt := ⟨1⟩, group := 1
      ended := .exited (if command.args.contains "/t/a" then 1 else 0)
      leaves := fun _ => disk }
  schedule _ count :=
    if count = 2 then [.start 1, .start 0, .deliver 1, .deliver 0] else Turn.inOrder count

theorem runsEach_hasty : hasty.RunsEach := by
  intro workers count
  change Turn.Complete count (if count = 2 then _ else _)
  split
  · next h =>
      subst h
      exact ⟨by decide, by decide, by decide⟩
  · exact Turn.complete_inOrder count

/-- Two tests, the first of which is the smoke test as well. -/
def twoTests : Session where
  machine := hasty
  config :=
    { root := ⟨"/t"⟩, patterns := ["{b,a}"], skip := [], excludedSuffixes := []
      simulator := { base := { program := "spike" } }, build := none, smoke := some ⟨"a"⟩, jobs := 2
      timeoutSecs := none, reportPaths := .full, riscof := none }
  request := {}
  scene :=
    { disk := { nodes := [(["t"], .directory), (["a", "t"], .file [] false),
        (["b", "t"], .file [] false)] } }

/-- Two tests are listed and counted once each, although one is run twice. -/
theorem report_of_twoTests : ∃ report s', twoTests.result = (.ok report, s') ∧
    report.Ordered ∧ (report.results.results.map (·.test)).Perm [⟨"/t/a"⟩, ⟨"/t/b"⟩] ∧
      report.Accounts 2 := by
  have htests : twoTests.tests? = .ok [⟨"/t/a"⟩, ⟨"/t/b"⟩] := by decide +kernel
  have h := twoTests.result_eq_ok_iff.2 ⟨_, htests, rfl, rfl, rfl⟩
  obtain ⟨tests, htests', hordered, -, -, hall, haccounts, -⟩ :=
    report_counts_tests runsEach_hasty h
  obtain rfl : tests = [⟨"/t/a"⟩, ⟨"/t/b"⟩] := Except.ok.inj (htests'.symm.trans htests)
  exact ⟨_, _, h, hordered, hall ⟨rfl, by decide⟩, haccounts⟩

/-- All that is shown of the run: the number of the tests, and the smoke test. -/
example : twoTests.result.2.statusText =
    "Total Test Count: 2\nSmoke test: /t/a\nReturn Code: 1\nOutput:\n\n" := by decide +kernel

end Session

end Testbench
