/-
**Test failures are data.**

Two runs of one configuration may come upon different simulators: one that passes every test, say,
and one that crashes, hangs, or cannot be started.  As long as the tests are resolved and the
simulator is built in the same way, both runs succeed or both fail alike; they list the same tests;
and a test on which the simulators do the same has the same result in both, if no run of a
simulator changes what a later one does.

Main definitions:

* `Testbench.Output.timeless`, `Testbench.TestResult.timeless` — durations put aside;
* `Testbench.Config.SeesSame`, `Testbench.Session.AgreesBeforeTests` — two worlds that are alike
  before the first test;
* `Testbench.Session.shows` — what a test shows on a disk;
* `Testbench.Session.Isolated` — no run of the simulator changes what a later one shows;
* `Testbench.Session.AgreesOn` — two simulators that do the same on one test.

Main results:

* `Testbench.Batch.message_eq_some` — where a result comes from;
* `Testbench.Session.timeless_of_mem_report` — **a result depends on its own test alone**;
* `Testbench.Session.agree_or_fail_alike` — **test failures are data**, and tests do not mix.
-/

import Testbench.Proofs.BuildGate

set_option relaxedAutoImplicit false
set_option autoImplicit false

namespace Testbench

/-! ### Durations put aside -/

/-- What is known of a program, its duration put aside. -/
def Output.timeless (o : Output) : Output := { o with duration := ⟨0⟩ }

/-- A result, its duration put aside. -/
def TestResult.timeless (r : TestResult) : TestResult := { r with durationMs := 0 }

theorem timeless_testResult (test : Path) (result : Except Fault Output) :
    (testResult test result).timeless = testResult test (result.map Output.timeless) := by
  have hzero : (⟨0⟩ : Span).inMilliseconds = 0 := by decide
  cases result with
  | error fault => rfl
  | ok output =>
      change TestResult.mk _ _ _ _ 0 = TestResult.mk _ _ _ _ (Span.inMilliseconds ⟨0⟩)
      rw [hzero]
      rfl

/-- A build hands durations over and does not look at them. -/
theorem timeless_buildResult (command : Command) (result : Except Fault Output) :
    (buildResult (gateResult command result)).map Output.timeless =
      buildResult (gateResult command (result.map Output.timeless)) := by
  cases result with
  | error fault => rfl
  | ok output =>
      change _ = buildResult (gateResult command (.ok output.timeless))
      rw [gateResult_ok, gateResult_ok]
      change _ = buildResult (if output.returnCode = 0 then _ else _)
      by_cases hzero : output.returnCode = 0
      · rw [if_pos hzero, if_pos hzero]; rfl
      · rw [if_neg hzero, if_neg hzero]; rfl

/-- A gate does not look at durations. -/
theorem buildResult_timeless (command : Command) (result : Except Fault Output) :
    (buildResult (gateResult command (result.map Output.timeless))).map (fun _ => ()) =
      (buildResult (gateResult command result)).map fun _ => () := by
  rw [← timeless_buildResult]
  cases buildResult (gateResult command result) <;> rfl

/-! ### Where results come from -/

namespace Batch

variable {α : Type} {b : Batch α}

theorem mem_of_mem_started {turns : List Turn} {test : Path} (h : test ∈ b.started turns) :
    test ∈ b.tests := by
  obtain ⟨i, -, hi⟩ := List.mem_filterMap.1 h
  exact List.mem_of_getElem? hi

/-- **Where a result comes from**: a test was run on the disk that other tests had left. -/
theorem message_eq_some (hc : b.Complete) (hq : ∀ a r, Quiet (b.observe a r)) {i : Nat}
    {r : TestResult} (h : b.message i = some r) :
    ∃ (earlier : List Path) (test : Path), (∀ t ∈ earlier, t ∈ b.tests) ∧ test ∈ b.tests ∧
      r = testResult test (b.machine.outcome b.options.timeout
        (b.machine.disksAfter b.options.timeout b.scene.disk
          (earlier.map b.simulator.commandFor)) (b.simulator.commandFor test)) := by
  rw [message] at h
  split at h
  · obtain ⟨test, htest, rfl⟩ := Option.map_eq_some_iff.1 h
    have hturns : b.turns = Turn.before b.turns (.start i) ++
        b.turns.dropWhile (· ≠ .start i) := List.takeWhile_append_dropWhile.symm
    have hdisk := (performs_after hc hq _ _ hturns).2
    refine ⟨b.started (Turn.before b.turns (.start i)), test, fun t => mem_of_mem_started,
      List.mem_of_getElem? htest, ?_⟩
    rw [runOne, value_runTest, sceneAt, hdisk]
    rfl
  · cases h

end Batch

/-! ### Alike before the tests -/

/-- On two disks a configuration **sees the same**: the root is a directory on both or on neither,
and its patterns lead to the same paths, of which the same are files. -/
structure Config.SeesSame (c : Config) (d d' : Disk) : Prop where
  root : d'.isDirectory c.root = d.isDirectory c.root
  found : ∀ globs, c.query.globs = .ok globs → ∀ g ∈ globs, g.find d' = g.find d
  files : ∀ globs, c.query.globs = .ok globs → ∀ g ∈ globs, ∀ p ∈ g.find d,
    d'.isFile p = d.isFile p

theorem Config.SeesSame.candidates_eq {c : Config} {d d' : Disk} (h : c.SeesSame d d')
    {globs : List Glob} (hglobs : c.query.globs = .ok globs) :
    c.query.candidates (.ofDisk d') globs = c.query.candidates (.ofDisk d) globs := by
  have hwalk : globs.flatMap (Corpus.View.ofDisk d').walk =
      globs.flatMap (Corpus.View.ofDisk d).walk := by
    refine List.flatMap_congr fun g hg => ?_
    exact congrArg (List.map Except.ok) (h.found globs hglobs g hg)
  rw [Corpus.Query.candidates, Corpus.Query.candidates, hwalk]
  refine List.filterMap_congr fun found hfound => ?_
  obtain ⟨g, hg, hmem⟩ := List.mem_flatMap.1 hfound
  obtain ⟨p, hp, rfl⟩ := List.mem_map.1 hmem
  have hcandidate : c.query.isCandidate (.ofDisk d') p = c.query.isCandidate (.ofDisk d) p :=
    congrArg (· && c.query.admits p) (h.files globs hglobs g hg p hp)
  rw [Corpus.Query.candidate?, Corpus.Query.candidate?, hcandidate]

/-- A configuration that sees the same has the same tests. -/
theorem Config.SeesSame.resolveCorpus_eq {c : Config} {d d' : Disk} (h : c.SeesSame d d') :
    c.resolveCorpus d' = c.resolveCorpus d := by
  have hresolve : c.query.resolve d' = c.query.resolve d := by
    rw [Corpus.Query.resolve, Corpus.Query.resolve, Corpus.Query.resolveIn,
      Corpus.Query.resolveIn]
    cases hglobs : c.query.globs with
    | error failure => simp only [Except.map]
    | ok globs => simp only [Except.map, h.candidates_eq hglobs]
  rw [resolveCorpus, resolveCorpus, h.root, hresolve]

namespace Session

/-- Two worlds are **alike before the first test**: one configuration sees the same in both, and the
build, if one is asked for, comes to the same in both, durations aside. -/
structure AgreesBeforeTests (S S' : Session) : Prop where
  config : S'.config = S.config
  request : S'.request = S.request
  sees : S.config.SeesSame S.scene.disk S'.scene.disk
  build : ∀ spec, S.build? = some spec →
    (spec.outcome S.request.release S'.machine S'.scene.disk).map Output.timeless =
      (spec.outcome S.request.release S.machine S.scene.disk).map Output.timeless

namespace AgreesBeforeTests

variable {S S' : Session}

theorem tests?_eq (h : S.AgreesBeforeTests S') : S'.tests? = S.tests? := by
  rw [tests?, tests?, h.config, h.sees.resolveCorpus_eq]

theorem build?_eq (h : S.AgreesBeforeTests S') : S'.build? = S.build? := by
  rw [build?, build?, h.config, h.request]

theorem verdict_eq (h : S.AgreesBeforeTests S') : S'.verdict = S.verdict := by
  rw [verdict, verdict, h.build?_eq, h.request]
  cases hbuild : S.build? with
  | none => rfl
  | some spec =>
      dsimp only
      rw [← buildResult_timeless, h.build spec hbuild, buildResult_timeless]

end AgreesBeforeTests

/-! ### One test on its own -/

section

variable (S : Session)

/-- What a test shows on a disk, durations aside. -/
def shows (d : Disk) (test : Path) : Except Fault Output :=
  (S.machine.outcome S.config.timeout d (S.config.simulator.commandFor test)).map Output.timeless

/-- The disk when some tests were run after the gate. -/
def diskAfterTests (runs : List Path) : Disk :=
  S.machine.disksAfter S.config.timeout S.gateDisk (runs.map S.config.simulator.commandFor)

/-- The test is one that the session may run. -/
def Runs (tests : List Path) (test : Path) : Prop :=
  test ∈ S.config.smokePath.toList ∨ test ∈ tests

/-- The runs of the simulator **do not act on one another** through the disk: one more run changes
nothing of what a test shows. -/
def Isolated (tests : List Path) : Prop :=
  ∀ earlier test next, (∀ t ∈ earlier, S.Runs tests t) → S.Runs tests test → S.Runs tests next →
    S.shows (S.diskAfterTests (earlier ++ [test])) next = S.shows (S.diskAfterTests earlier) next

/-- Two simulators do the same on a test that is run right after the gate, durations aside. -/
def AgreesOn (S' : Session) (test : Path) : Prop :=
  S'.shows S'.gateDisk test = S.shows S.gateDisk test

end

variable {S S' : Session} {tests : List Path}

/-- After any tests a test shows what it shows right after the gate. -/
theorem Isolated.shows_diskAfterTests (h : S.Isolated tests) (next : Path)
    (hnext : S.Runs tests next) (runs : List Path) (hruns : ∀ t ∈ runs, S.Runs tests t) :
    S.shows (S.diskAfterTests runs) next = S.shows S.gateDisk next := by
  -- the list of runs grows at its end
  induction runs using List.reverseRecOn with
  | nil => rfl
  | append_singleton earlier test ih =>
      have hearlier : ∀ t ∈ earlier, S.Runs tests t := fun t ht =>
        hruns t (List.mem_append_left _ ht)
      have htest : S.Runs tests test := hruns test (by simp)
      rw [h earlier test next hearlier htest hnext, ih hearlier]

/-- The tests of a session begin on the disk that the smoke test leaves. -/
theorem disk_batch (S : Session) (tests : List Path) :
    (S.batch tests).scene.disk = S.diskAfterTests S.config.smokePath.toList :=
  (S.performs_smoke tests).disk

/-- **A result depends on its own test alone**: it is what the test shows right after the gate. -/
theorem timeless_of_mem_report (hm : S.machine.RunsEach) (hi : S.Isolated tests) {r : TestResult}
    (hr : r ∈ (S.report tests).results.results) :
    r.timeless = testResult r.test (S.shows S.gateDisk r.test) := by
  have hc := complete_batch hm tests
  rw [(results_report_perm S tests).mem_iff, Batch.results_eq hc] at hr
  obtain ⟨i, -, hmessage⟩ := List.mem_filterMap.1 hr
  obtain ⟨earlier, test, hearlier, htest, rfl⟩ :=
    Batch.message_eq_some hc (fun p r => quiet_countResult p r) hmessage
  have hruns : ∀ t ∈ S.config.smokePath.toList ++ earlier, S.Runs tests t := by
    intro t ht
    rcases List.mem_append.1 ht with hsmoke | hmem
    · exact Or.inl hsmoke
    · exact Or.inr (hearlier t hmem)
  have hshows := hi.shows_diskAfterTests test (Or.inr htest) _ hruns
  rw [timeless_testResult, test_testResult, disk_batch, ← hshows, diskAfterTests,
    diskAfterTests, List.map_append, Machine.disksAfter_append]
  rfl

/-- What becomes known of the smoke test. -/
theorem value_smoke (S : Session) (tests : List Path) :
    (S.smoke tests).1 = S.config.smokePath.map fun test =>
      testResult test (S.machine.outcome S.config.timeout S.gateDisk
        (S.config.simulator.commandFor test)) := by
  rw [smoke, ← S.disk_gate tests, runSmoke]
  cases S.config.smokePath with
  | none => rfl
  | some test => exact congrArg some (value_runTest ..)

theorem timeless_smoke (S : Session) (tests : List Path) :
    (S.report tests).smoke.map TestResult.timeless =
      S.config.smokePath.map fun test => testResult test (S.shows S.gateDisk test) := by
  change (S.smoke tests).1.map _ = _
  rw [value_smoke, Option.map_map]
  refine Option.map_congr fun test _ => ?_
  exact timeless_testResult ..

/-! ### Two worlds -/

/-- A smoke test on which the simulators agree has the same result. -/
theorem AgreesBeforeTests.timeless_smoke_eq (h : S.AgreesBeforeTests S') (tests : List Path)
    (hsame : ∀ test, S.config.smokePath = some test → S.AgreesOn S' test) :
    (S'.report tests).smoke.map TestResult.timeless =
      (S.report tests).smoke.map TestResult.timeless := by
  rw [timeless_smoke, timeless_smoke, h.config]
  refine Option.map_congr fun test htest => ?_
  have hshown : S'.shows S'.gateDisk test = S.shows S.gateDisk test := hsame test htest
  rw [hshown]

/-- Without an interrupt all tests are counted as run. -/
theorem dispatched_report (hm : S.machine.RunsEach) (hu : (S.batch tests).Uninterrupted) :
    (S.report tests).summary.dispatched = tests.length := by
  have hlength := (tests_report_perm hm hu).length_eq
  rwa [List.length_map] at hlength

/-- Without an interrupt both reports list and count the resolved tests. -/
theorem sameTests_report (hm : S.machine.RunsEach) (hm' : S'.machine.RunsEach)
    (hu : (S.batch tests).Uninterrupted) (hu' : (S'.batch tests).Uninterrupted) :
    (S.report tests).SameTests (S'.report tests) := by
  have hperm := tests_report_perm hm hu
  have hperm' := tests_report_perm hm' hu'
  have hdispatched := dispatched_report hm hu
  have hdispatched' := dispatched_report hm' hu'
  have hsum := (accounts_report hm tests).dispatched_add_notRun
  have hsum' := (accounts_report hm' tests).dispatched_add_notRun
  exact ⟨hperm.trans hperm'.symm, by omega, by omega⟩

/-- **Test failures are data.**  Two worlds that are alike before the first test may differ in all
that the simulator does for the smoke test and the tests: both sessions fail alike, or both succeed.
If they succeed and are not interrupted, both reports list every test and count the same.  A test on
which the two simulators agree, be it the smoke test, has the same result in both, whatever they do
on the others. -/
theorem agree_or_fail_alike (hm : S.machine.RunsEach) (hm' : S'.machine.RunsEach)
    (h : S.AgreesBeforeTests S') :
    (∃ failure, S.result.1 = .error failure ∧ S'.result.1 = .error failure) ∨
      ∃ tests report report', S.tests? = .ok tests ∧ S'.tests? = .ok tests ∧
        S.result.1 = .ok report ∧ S'.result.1 = .ok report' ∧
        ((∀ test, S.config.smokePath = some test → S.AgreesOn S' test) →
          report'.smoke.map TestResult.timeless = report.smoke.map TestResult.timeless) ∧
        ((S.batch tests).Uninterrupted → (S'.batch tests).Uninterrupted →
          (report.results.results.map (·.test)).Perm tests ∧ report.SameTests report' ∧
          (S.Isolated tests → S'.Isolated tests →
            ∀ test, S.AgreesOn S' test → ∀ r ∈ report.results.results, r.test = test →
              ∀ r' ∈ report'.results.results, r'.test = test → r'.timeless = r.timeless)) := by
  cases htests : S.tests? with
  | error failure =>
      have htests' : S'.tests? = .error failure := h.tests?_eq.trans htests
      exact Or.inl ⟨failure, by rw [result_eq, htests], by rw [result_eq, htests']⟩
  | ok tests =>
      have htests' : S'.tests? = .ok tests := h.tests?_eq.trans htests
      cases hv : S.verdict with
      | error failure =>
          have hv' : S'.verdict = .error failure := h.verdict_eq.trans hv
          exact Or.inl ⟨failure, by rw [result_of_failed htests hv],
            by rw [result_of_failed htests' hv']⟩
      | ok opened =>
          have hv' : S'.verdict = .ok () := h.verdict_eq.trans hv
          refine Or.inr ⟨tests, S.report tests, S'.report tests, rfl, htests',
            by rw [result_of_passed htests hv], by rw [result_of_passed htests' hv'],
            h.timeless_smoke_eq tests,
            fun hu hu' => ⟨tests_report_perm hm hu, sameTests_report hm hm' hu hu', ?_⟩⟩
          intro hi hi' test hsame r hr hrtest r' hr' hrtest'
          have hshown : S'.shows S'.gateDisk test = S.shows S.gateDisk test := hsame
          rw [timeless_of_mem_report hm hi hr, timeless_of_mem_report hm' hi' hr', hrtest, hrtest',
            hshown]

/-- A machine on which programs change nothing and print nothing: they end as they are told, or
cannot be started. -/
def idle (fate : Command → Except Fault Ended) : Machine where
  launch disk command := (fate command).map fun ended =>
    { directory := [], writes := [], endsAt := ⟨1⟩, ended, goneAt := ⟨1⟩, leaves := fun _ => disk
      group := 1 }

theorem diskAfter_idle (fate : Command → Except Fault Ended) (limit : Option Span) (d : Disk)
    (command : Command) : (idle fate).diskAfter limit d command = d := by
  simp only [Machine.diskAfter, idle]
  cases fate command <;> rfl

/-- On such a machine no run acts on another. -/
theorem isolated_of_idle {fate : Command → Except Fault Ended} (h : S.machine = idle fate)
    (tests : List Path) : S.Isolated tests := by
  intro earlier test next _ _ _
  have hlast : S.diskAfterTests (earlier ++ [test]) = S.diskAfterTests earlier := by
    rw [diskAfterTests, List.map_append, Machine.disksAfter_append, diskAfterTests, h]
    exact diskAfter_idle ..
  rw [hlast]

/-- Two tests on a machine on which all programs pass. -/
def allPass : Session := { twoTests with machine := idle fun _ => .ok (.exited 0) }

/-- The same two tests on a machine that does not start the simulator for the first of them. -/
def firstRefused : Session :=
  { twoTests with
    machine := idle fun command =>
      if command.args.contains "/t/a" then .error .permissionDenied else .ok (.exited 0) }

/-- A test that cannot be started changes nothing for the other one. -/
theorem timeless_of_firstRefused :
    allPass.machine.RunsEach ∧ firstRefused.machine.RunsEach ∧
      allPass.AgreesBeforeTests firstRefused ∧
      ∃ report report', allPass.result.1 = .ok report ∧ firstRefused.result.1 = .ok report' ∧
        report.SameTests report' ∧
        ∀ r ∈ report.results.results, r.test = ⟨"/t/b"⟩ →
          ∀ r' ∈ report'.results.results, r'.test = ⟨"/t/b"⟩ → r'.timeless = r.timeless := by
  have hm : allPass.machine.RunsEach := fun _ count => Turn.complete_inOrder count
  have hm' : firstRefused.machine.RunsEach := fun _ count => Turn.complete_inOrder count
  have h : allPass.AgreesBeforeTests firstRefused :=
    ⟨rfl, rfl, ⟨rfl, fun _ _ _ _ => rfl, fun _ _ _ _ _ _ => rfl⟩, nofun⟩
  have htests : allPass.tests? = .ok [⟨"/t/a"⟩, ⟨"/t/b"⟩] := by decide +kernel
  refine ⟨hm, hm', h, ?_⟩
  rcases agree_or_fail_alike hm hm' h with ⟨failure, hfailed, -⟩ | hboth
  · rw [result_of_passed htests rfl] at hfailed
    cases hfailed
  · obtain ⟨tests, report, report', hsome, -, hok, hok', -, hlisted⟩ := hboth
    obtain rfl : tests = [⟨"/t/a"⟩, ⟨"/t/b"⟩] := Except.ok.inj (hsome.symm.trans htests)
    obtain ⟨-, hsame, hown⟩ := hlisted ⟨rfl, by decide⟩ ⟨rfl, by decide⟩
    exact ⟨report, report', hok, hok', hsame,
      hown (isolated_of_idle rfl _) (isolated_of_idle rfl _) ⟨"/t/b"⟩ rfl⟩

end Session

end Testbench
