/-
**The build gate.**

A test that is run against a simulator left over from an earlier build gives a verdict that means
nothing.  So whatever the programs of a session do, they are tried in one order: the configure step
of a release, the build, the smoke test, the tests.  A build that does not succeed is the last thing
that is tried, and the session ends with what it printed.

Main definitions:

* `Testbench.Session.build?`, `Testbench.Session.gateCommands` — the gate of a session;
* `Testbench.Command.gateFailure?`, `Testbench.BuildSpec.failureAt`,
  `Testbench.Session.buildFailure?` — why a gate does not open, and why a build fails;
* `Testbench.Session.gateMilestones`, `Testbench.Session.smokeMilestones`,
  `Testbench.Session.testMilestones` — what a trace tells of each step;
* `Testbench.Machine.NumbersSignals` — signals are numbered from 1 on.

Main results:

* `Testbench.gateResult_outcome_eq_error_iff` — why a gate does not open;
* `Testbench.Session.value_passBuildGate`, `Testbench.Session.performs_passBuildGate` — what passing
  the gate of a build comes to;
* `Testbench.Session.milestones_closing` — what a session does when its gate is open;
* `Testbench.Session.build_guards_tests` — **the build guards the tests**.
-/

import Testbench.Proofs.Accounting
import Testbench.Proofs.Episodes

set_option relaxedAutoImplicit false
set_option autoImplicit false

namespace Testbench

/-! ### Why a build fails -/

/-- **Signals are numbered from 1 on**, so that no program is ended by a signal 0. -/
def Machine.NumbersSignals (m : Machine) : Prop :=
  ∀ d command l, m.launch d command = .ok l → l.ended ≠ .signaled 0

/-- Everything that a program and those it leaves behind write, as text. -/
def Lifeline.printed (l : Lifeline) : String := Utf8.lossy (l.writes.flatMap (·.2))

theorem text_outputOf_none (l : Lifeline) : (outputOf l none).text = l.printed := by
  have hbytes := Capture.flatten_lines (l.writes.map (·.2))
  change Utf8.lossy (Capture.ofChunks (l.chunks none)).lines.flatten = _
  rw [Lifeline.bytes_none, hbytes]
  rfl

/-- What is known of a program that is not limited and ends by itself. -/
theorem outputOf_of_exited {l : Lifeline} {code : Int} (h : l.ended = .exited code) :
    outputOf l none = ⟨code, l.printed, .exited code, l.goneAt⟩ := by
  have hending : l.ending none = .exited code := by
    rw [Lifeline.ending, h]
    rfl
  rw [← text_outputOf_none, outputOf, hending]
  rfl

/-- Why a gate does not open, if it does not, by what becomes of its command: it cannot be started,
it ends with a code that is not zero, or a signal ends it. -/
def Command.gateFailure? (command : Command) : Except Fault Lifeline → Option (Int × String)
  | .error fault =>
      some (127, "failed to run '" ++ command.display ++ "': " ++ fault.message ++ "\n")
  | .ok l =>
      match l.ended with
      | .exited code => if code = 0 then none else some (code, l.printed)
      | .signaled signal => some (-signal, l.printed)

/-- A gate opens for a program that ends by itself, with the code zero. -/
theorem Command.gateFailure?_eq_none_iff {command : Command} {r : Except Fault Lifeline} :
    command.gateFailure? r = none ↔ ∃ l, r = .ok l ∧ l.ended = .exited 0 := by
  cases r with
  | error fault => simp [gateFailure?]
  | ok l => cases hended : l.ended <;> simp [gateFailure?, hended]

/-- What a gate says of a program that has ended. -/
theorem gateResult_ok (command : Command) (output : Output) :
    gateResult command (.ok output) =
      if output.returnCode = 0 then .ok output else .error (output.returnCode, output.text) := by
  simp [gateResult, Output.success]

theorem gateResult_outcome_eq_error_iff {m : Machine} (hs : m.NumbersSignals) {command : Command}
    {d : Disk} {e : Int × String} :
    gateResult command (m.outcome none d command) = .error e ↔
      command.gateFailure? (m.launch d command) = some e := by
  rw [Machine.outcome]
  cases hlaunch : m.launch d command with
  | error fault => simp [Except.map, gateResult, dispatchFailureCode, Command.gateFailure?]
  | ok l =>
      have hnumber := hs d command l hlaunch
      change gateResult command (.ok (outputOf l none)) = _ ↔ _
      rw [gateResult_ok, text_outputOf_none, outputOf_returnCode, Command.gateFailure?]
      cases hended : l.ended with
      | exited code =>
          have hcode : (l.ending none).code = code := by
            rw [Lifeline.ending, hended]; rfl
          rw [hcode]
          by_cases hzero : code = 0 <;> simp [hzero]
      | signaled signal =>
          have hcode : (l.ending none).code = -signal := by
            rw [Lifeline.ending, hended]; rfl
          have hsignal : -signal ≠ 0 := by
            intro h
            rw [Int.neg_eq_zero] at h
            exact hnumber (by rw [hended, h])
          simp [hcode, hsignal]

theorem gateResult_outcome_of_exited {m : Machine} {command : Command} {d : Disk} {l : Lifeline}
    (hlaunch : m.launch d command = .ok l) (hended : l.ended = .exited 0) :
    gateResult command (m.outcome none d command) = .ok (outputOf l none) := by
  rw [Machine.outcome, hlaunch]
  exact (gateResult_ok_iff ..).2 ⟨rfl, by rw [outputOf_of_exited hended]⟩

/-- A gate that opens gives no reason. -/
theorem gateFailure?_eq_none_of_ok {m : Machine} (hs : m.NumbersSignals) {command : Command}
    {d : Disk} {output : Output}
    (h : gateResult command (m.outcome none d command) = .ok output) :
    command.gateFailure? (m.launch d command) = none := by
  refine Option.eq_none_iff_forall_ne_some.2 fun e he => ?_
  cases ((gateResult_outcome_eq_error_iff hs).2 he).symm.trans h

/-- Why a build fails, if it does, by what becomes of its command: its gate does not open. -/
def BuildSpec.failureAt (spec : BuildSpec) (launched : Except Fault Lifeline) : Option Failure :=
  (spec.command.gateFailure? launched).map fun e => .buildFailed e.1 e.2

theorem buildResult_outcome {m : Machine} (hs : m.NumbersSignals) (spec : BuildSpec) (d : Disk) :
    (buildResult (gateResult spec.command (m.outcome none d spec.command))).map (fun _ => ()) =
      match spec.failureAt (m.launch d spec.command) with
      | none => .ok ()
      | some failure => .error failure := by
  rw [BuildSpec.failureAt]
  cases hgate : gateResult spec.command (m.outcome none d spec.command) with
  | error e =>
      rw [(gateResult_outcome_eq_error_iff hs).1 hgate]
      rfl
  | ok output =>
      rw [gateFailure?_eq_none_of_ok hs hgate]
      rfl

/-! ### Passing the gate -/

/-- The build that is asked for. -/
def RunRequest.build? (r : RunRequest) (c : Config) : Option BuildSpec :=
  if r.skipBuild then none else c.build

/-- The line that tells of a build that succeeded. -/
def buildSuccess : Event := .status "Build Success!\n"

/-- A build that succeeded is told to the person who watches. -/
def tellSuccess (built : Except Failure Output × Scene) : Except Failure Unit × Scene :=
  match built.1 with
  | .error failure => (.error failure, built.2)
  | .ok _ => (.ok (), built.2.add buildSuccess)

theorem value_tellSuccess (built : Except Failure Output × Scene) :
    (tellSuccess built).1 = built.1.map fun _ => () := by
  rw [tellSuccess]
  cases built.1 <;> rfl

theorem disk_tellSuccess (built : Except Failure Output × Scene) :
    (tellSuccess built).2.disk = built.2.disk := by
  rw [tellSuccess]
  cases built.1 <;> rfl

theorem milestones_tellSuccess (built : Except Failure Output × Scene) :
    (tellSuccess built).2.milestones = built.2.milestones ++
      match built.1.map fun _ => () with
      | .ok () => [buildSuccess]
      | .error _ => [] := by
  rw [tellSuccess]
  cases built.1 with
  | error failure => exact (List.append_nil _).symm
  | ok output => exact built.2.milestones_add buildSuccess

theorem run_passBuildGate (m : Machine) (c : Config) (r : RunRequest) (s : Scene) :
    (passBuildGate m c r).run.run s =
      match r.build? c with
      | none => (.ok (), s)
      | some spec => tellSuccess ((buildSimulator m spec r.release r.echoBuild).run.run s) := by
  rw [passBuildGate, RunRequest.build?]
  cases r.skipBuild with
  | true => rfl
  | false =>
      cases c.build with
      | none => rfl
      | some spec =>
          refine (run_work_bind (buildSimulator m spec r.release r.echoBuild) _ s).trans ?_
          simp only [Bool.false_eq_true, if_false, tellSuccess]
          cases ((buildSimulator m spec r.release r.echoBuild).run.run s).1 <;> rfl

namespace Session

variable (S : Session)

/-- The build that a session is asked for. -/
def build? : Option BuildSpec := S.request.build? S.config

/-- The commands of the gate, in order. -/
def gateCommands : List Command :=
  match S.build? with
  | none => []
  | some spec => spec.commands S.request.release

/-- What a trace tells of the gate. -/
def gateMilestones : List Event := S.machine.episodes none S.scene.disk S.gateCommands

/-- The disk that the gate leaves. -/
def gateDisk : Disk := S.machine.disksAfter none S.scene.disk S.gateCommands

/-- What passing the gate comes to. -/
def verdict : Except Failure Unit :=
  match S.build? with
  | none => .ok ()
  | some spec =>
      (buildResult (gateResult spec.command
        (spec.outcome S.request.release S.machine S.scene.disk))).map fun _ => ()

/-- Why the build of a session fails, if it does. -/
def buildFailure? : Option Failure :=
  S.build?.bind fun spec =>
    spec.failureAt (S.machine.launch
      (spec.diskForBuild S.request.release S.machine S.scene.disk) spec.command)

/-- The line about the build, if there is one. -/
def successLines : List Event := if S.build?.isSome then [buildSuccess] else []

theorem attempts_successLines : S.successLines.filterMap Event.attempted? = [] := by
  rw [successLines]
  split <;> rfl

/-- A session passes its gate unless its build fails. -/
theorem verdict_eq (hs : S.machine.NumbersSignals) :
    S.verdict = match S.buildFailure? with
      | none => .ok ()
      | some failure => .error failure := by
  rw [verdict, buildFailure?]
  cases S.build? with
  | none => rfl
  | some spec => exact buildResult_outcome hs spec _

/-- What is told of the build when the gate is passed, or is not. -/
def verdictLines : List Event :=
  match S.verdict with
  | .ok () => S.successLines
  | .error _ => []

/-- Passing the gate gives the verdict on the build, in every scene with the disk of the session. -/
theorem value_passBuildGate {s : Scene} (hd : s.disk = S.scene.disk) :
    ((passBuildGate S.machine S.config S.request).run.run s).1 = S.verdict := by
  rw [run_passBuildGate, verdict, build?]
  cases S.request.build? S.config with
  | none => rfl
  | some spec =>
      dsimp only
      rw [value_tellSuccess, value_buildSimulator, hd]

/-- What is done to pass the gate, in every scene with the disk of the session. -/
theorem performs_passBuildGate {s : Scene} (hd : s.disk = S.scene.disk) :
    Performs (passBuildGate S.machine S.config S.request).run s
      (S.gateMilestones ++ S.verdictLines) S.gateDisk where
  milestones := by
    refine (congrArg (·.2.milestones) (run_passBuildGate ..)).trans ?_
    rw [gateMilestones, gateCommands, verdictLines, successLines, verdict, build?]
    cases S.request.build? S.config with
    | none => exact (List.append_nil _).symm
    | some spec =>
        dsimp only
        rw [milestones_tellSuccess, value_buildSimulator, (performs_buildSimulator ..).milestones,
          hd, List.append_assoc]
        rfl
  disk := by
    refine (congrArg (·.2.disk) (run_passBuildGate ..)).trans ?_
    rw [gateDisk, gateCommands, build?]
    cases S.request.build? S.config with
    | none => exact hd
    | some spec =>
        dsimp only
        rw [disk_tellSuccess, (performs_buildSimulator ..).disk, hd]

variable (tests : List Path)

theorem disk_announced : (S.announced tests).disk = S.scene.disk := by
  rw [announced, announce]
  cases S.request.skipBuild <;> rfl

theorem milestones_announced :
    (S.announced tests).milestones = S.scene.milestones ++ [countLine tests] := by
  rw [Scene.milestones, announced, trace_announce, Scene.afterResolving, Scene.add_trace,
    List.filter_append, List.filter_append, List.append_assoc]
  cases S.request.skipBuild <;> rfl

theorem value_gate : (S.gate tests).1 = S.verdict := S.value_passBuildGate (S.disk_announced tests)

theorem disk_gate : (S.gate tests).2.disk = S.gateDisk :=
  (S.performs_passBuildGate (S.disk_announced tests)).disk

/-- What a session has done when it is past its gate, or has failed there. -/
theorem milestones_gate :
    (S.gate tests).2.milestones =
      S.scene.milestones ++ countLine tests :: (S.gateMilestones ++ S.verdictLines) := by
  have hgate := (S.performs_passBuildGate (S.disk_announced tests)).milestones
  rw [milestones_announced, List.append_assoc] at hgate
  exact hgate

/-! ### Smoke test and tests -/

/-- The command that runs the smoke test, if there is one. -/
def smokeCommands : List Command := S.config.smokePath.toList.map S.config.simulator.commandFor

/-- What a trace tells of the smoke test. -/
def smokeMilestones : List Event :=
  S.machine.episodes S.config.timeout S.gateDisk S.smokeCommands

/-- The disk that the smoke test leaves. -/
def smokeDisk : Disk := S.machine.disksAfter S.config.timeout S.gateDisk S.smokeCommands

/-- What is shown of the smoke test. -/
def smokeLines : List Event :=
  (S.smoke tests).1.toList.map fun r => .status (r.smokeText S.config.reportPaths)

/-- What a trace tells of some tests, run one after the other. -/
def testMilestones (started : List Path) : List Event :=
  S.machine.episodes S.config.timeout S.smokeDisk (started.map S.config.simulator.commandFor)

theorem performs_smoke : Performs (runSmoke S.machine S.config S.request) (S.gate tests).2
    (S.smokeMilestones ++ S.smokeLines tests) S.smokeDisk := by
  rw [smokeMilestones, smokeLines, smokeDisk, smokeCommands, smoke, ← S.disk_gate tests, runSmoke]
  cases S.config.smokePath with
  | none => exact (quiet_pure none).performs _
  | some test =>
      rw [Option.toList_some, List.map_singleton, Machine.episodes_singleton]
      exact performs_quiet_bind (quiet_note ..) (performs_bind_emit (performs_runTest ..) _ some)

/-- The tests that a session starts, in the order in which they are taken up. -/
def started : List Path := (S.batch tests).started (S.batch tests).turns

/-- **What a session does when its gate is open.** -/
theorem milestones_closing (hm : S.machine.RunsEach) :
    (S.closing tests).milestones = (S.gate tests).2.milestones ++
      (S.smokeMilestones ++ S.smokeLines tests ++ S.testMilestones (S.started tests)) := by
  have hsmoke := S.performs_smoke tests
  have hbatch := Batch.performs_runTests (complete_batch hm tests)
    (fun p r => quiet_countResult p r)
  have hdraw := ((quiet_draw (S.batch tests).result.1.2.finish.1).performs
    (S.batch tests).result.2).milestones
  have hdisk : (S.batch tests).scene.disk = S.smokeDisk := hsmoke.disk
  rw [hdisk] at hbatch
  calc (S.closing tests).milestones
      = (S.batch tests).result.2.milestones := hdraw.trans (List.append_nil _)
    _ = (S.smoke tests).2.milestones ++ S.testMilestones (S.started tests) := hbatch.milestones
    _ = _ := by rw [smoke, hsmoke.milestones, List.append_assoc]

/-- The tests that are started are those of the results. -/
theorem started_perm (hm : S.machine.RunsEach) :
    (S.started tests).Perm ((S.batch tests).result.1.1.results.map (·.test)) := by
  have hc := complete_batch hm tests
  rw [Batch.map_test_results hc]
  exact (hc.starts_perm.filter _).filterMap _

/-! ### The gate and the tests -/

theorem countLine_ne_buildSuccess : countLine tests ≠ buildSuccess := by
  intro h
  have htext := congrArg String.toList (Event.status.inj h)
  rw [String.toList_append, String.toList_append] at htext
  exact absurd (List.cons.inj htext).1 (by decide)

theorem buildSuccess_not_mem_smokeLines : buildSuccess ∉ S.smokeLines tests := by
  intro h
  obtain ⟨r, -, hr⟩ := List.mem_map.1 h
  have htext : ("Smoke test: " ++ r.test.display S.config.reportPaths ++ "\nReturn Code: " ++
      Decimal.ofInt r.exitCode ++ "\nOutput:\n" ++ endingInBreak r.output ++ "\n").toList =
        "Build Success!\n".toList := congrArg String.toList (Event.status.inj hr)
  simp only [String.toList_append, List.append_assoc] at htext
  exact absurd (List.cons.inj htext).1 (by decide)

theorem attempts_append {s s' : Scene} {events : List Event}
    (h : s'.milestones = s.milestones ++ events) :
    s'.attempts = s.attempts ++ events.filterMap Event.attempted? := by
  rw [Scene.attempts_eq, h, List.filterMap_append, ← Scene.attempts_eq]

variable {S} {tests}

/-- A session whose build fails ends there. -/
theorem result_of_failed {failure : Failure} (htests : S.tests? = .ok tests)
    (hv : S.verdict = .error failure) : S.result = (.error failure, (S.gate tests).2) := by
  have hgate : (S.gate tests).1 = .error failure := by rw [value_gate, hv]
  rw [result_eq, htests]
  change S.rest tests = _
  rw [rest, hgate]

theorem milestones_of_failed {failure : Failure} (tests : List Path)
    (hv : S.verdict = .error failure) :
    (S.gate tests).2.milestones = S.scene.milestones ++ countLine tests :: S.gateMilestones := by
  rw [milestones_gate, verdictLines, hv, List.append_nil]

/-- A session that passes its gate has a report. -/
theorem result_of_passed (htests : S.tests? = .ok tests) (hv : S.verdict = .ok ()) :
    S.result = (.ok (S.report tests), S.closing tests) :=
  S.result_eq_ok_iff.2 ⟨tests, htests, by rw [value_gate, hv], rfl, rfl⟩

/-- The milestones of a session that runs some tests. -/
def courseOf (S : Session) (tests started : List Path) : List Event :=
  countLine tests :: (S.gateMilestones ++ S.successLines ++ S.smokeMilestones ++
    S.smokeLines tests ++ S.testMilestones started)

theorem milestones_of_passed (tests : List Path) (hm : S.machine.RunsEach)
    (hv : S.verdict = .ok ()) :
    (S.closing tests).milestones = S.scene.milestones ++ S.courseOf tests (S.started tests) := by
  rw [milestones_closing S tests hm, milestones_gate, verdictLines, hv, courseOf]
  simp only [List.append_assoc, List.cons_append]

/-- The starts that are tried in a session: gate, smoke test, tests. -/
theorem attempts_courseOf (S : Session) (tests started : List Path) :
    (S.courseOf tests started).filterMap Event.attempted? =
      S.gateCommands ++ S.smokeCommands ++ started.map S.config.simulator.commandFor := by
  have hlines : (S.smokeLines tests).filterMap Event.attempted? = [] := by
    rw [smokeLines]
    cases (S.smoke tests).1 <;> rfl
  have hcount : (countLine tests).attempted? = none := rfl
  rw [courseOf, List.filterMap_cons_none hcount]
  simp only [List.filterMap_append, attempts_successLines, hlines, List.append_nil, gateMilestones,
    smokeMilestones, testMilestones, Machine.attempts_episodes]

theorem buildSuccess_mem_courseOf_iff (S : Session) (tests started : List Path) :
    buildSuccess ∈ S.courseOf tests started ↔ S.build?.isSome := by
  have hgate : buildSuccess ∉ S.gateMilestones :=
    S.machine.status_not_mem_episodes _ _ _ _
  have hsmoke : buildSuccess ∉ S.smokeMilestones :=
    S.machine.status_not_mem_episodes _ _ _ _
  have htest : buildSuccess ∉ S.testMilestones started :=
    S.machine.status_not_mem_episodes _ _ _ _
  have hlines := S.buildSuccess_not_mem_smokeLines tests
  have hcount := countLine_ne_buildSuccess tests
  simp only [courseOf, List.mem_cons, List.mem_append, hcount.symm, hgate, hsmoke, hlines, htest,
    false_or, or_false]
  rw [successLines]
  split <;> simp_all

/-- A session starts none but its tests. -/
theorem started_subperm (hm : S.machine.RunsEach) : (S.started tests).Subperm tests := by
  have hresults := Batch.map_test_results_sublist (complete_batch hm tests)
  exact (started_perm S tests hm).subperm.trans hresults.subperm

/-- No test is started twice. -/
theorem nodup_started (hm : S.machine.RunsEach) (htests : S.tests? = .ok tests) :
    (S.started tests).Nodup := by
  have hascending := ascending_results hm htests
  have hnodup : ((S.batch tests).result.1.1.results.map (·.test)).Nodup :=
    List.Pairwise.of_map Path.parts (fun _ _ hne heq => hne (congrArg Path.parts heq))
      hascending.nodup_parts
  exact (started_perm S tests hm).nodup_iff.2 hnodup

/-- Without an interrupt all tests are started. -/
theorem started_perm_of_uninterrupted (hm : S.machine.RunsEach)
    (hu : (S.batch tests).Uninterrupted) : (S.started tests).Perm tests := by
  have hperm := started_perm S tests hm
  rwa [Batch.map_test_results_of_uninterrupted (complete_batch hm tests) hu] at hperm

/-- **The build guards the tests.**  If the tests cannot be resolved, nothing is done at all.  Else
the configure step of a release and the build come first, if a build is asked for; a build that
fails is the end of it, with the code and the output of the build as the failure.  If it does not
fail, the smoke test is run, and it is over before the first test starts; then each of the tests is
started at most once, and all of them unless the run is interrupted.  The line about the build is
shown exactly if a build was asked for and succeeded. -/
theorem build_guards_tests (hm : S.machine.RunsEach) (hs : S.machine.NumbersSignals) :
    (∀ failure, S.tests? = .error failure → S.result = (.error failure, S.scene)) ∧
      ∀ tests, S.tests? = .ok tests → ∃ events,
        S.result.2.milestones = S.scene.milestones ++ events ∧
        (buildSuccess ∈ events ↔ S.build?.isSome ∧ S.buildFailure? = none) ∧
        (∀ failure, S.buildFailure? = some failure →
          S.result.1 = .error failure ∧ events = countLine tests :: S.gateMilestones ∧
          S.result.2.attempts = S.scene.attempts ++ S.gateCommands) ∧
        (S.buildFailure? = none → (∃ report, S.result.1 = .ok report) ∧
          ∃ started, started.Subperm tests ∧ started.Nodup ∧
            ((S.batch tests).Uninterrupted → started.Perm tests) ∧
            events = countLine tests :: (S.gateMilestones ++ S.successLines ++
              S.smokeMilestones ++ S.smokeLines tests ++ S.testMilestones started) ∧
            S.result.2.attempts = S.scene.attempts ++
              (S.gateCommands ++ S.smokeCommands ++
                started.map S.config.simulator.commandFor)) := by
  refine ⟨fun failure hfailure => by rw [result_eq, hfailure], fun tests htests => ?_⟩
  have hv := S.verdict_eq hs
  cases hbuild : S.buildFailure? with
  | some failure =>
      rw [hbuild] at hv
      have hresult := result_of_failed htests hv
      have hmilestones := milestones_of_failed tests hv
      refine ⟨countLine tests :: S.gateMilestones, by rw [hresult]; exact hmilestones, ?_, ?_, ?_⟩
      · have hcount := countLine_ne_buildSuccess tests
        have hgate : buildSuccess ∉ S.gateMilestones :=
          S.machine.status_not_mem_episodes _ _ _ _
        simp [hcount.symm, hgate]
      · rintro _ ⟨⟩
        refine ⟨by rw [hresult], rfl, ?_⟩
        rw [hresult, attempts_append hmilestones]
        exact congrArg (S.scene.attempts ++ ·) (S.machine.attempts_episodes ..)
      · intro h
        cases h
  | none =>
      rw [hbuild] at hv
      have hresult := result_of_passed htests hv
      have hmilestones := milestones_of_passed tests hm hv
      refine ⟨S.courseOf tests (S.started tests), by rw [hresult]; exact hmilestones, ?_, ?_, ?_⟩
      · rw [buildSuccess_mem_courseOf_iff]
        exact (and_iff_left rfl).symm
      · intro failure h
        cases h
      · intro _
        refine ⟨⟨_, by rw [hresult]⟩, S.started tests, started_subperm hm, nodup_started hm htests,
          started_perm_of_uninterrupted hm, rfl, ?_⟩
        rw [hresult, attempts_append hmilestones, attempts_courseOf]

/-- A release whose configure step cannot be started. -/
def unconfigured : Session :=
  { twoTests with
    machine :=
      { launch := fun disk command =>
          if command.program = "configure" then .error .noSuchFile
          else .ok
            { directory := [], writes := [], endsAt := ⟨1⟩, ended := .exited 0, goneAt := ⟨1⟩
              leaves := fun _ => disk, group := 1 } }
    config :=
      { twoTests.config with
        build := some
          { command := { program := "make" }
            releaseConfigure := some { program := "configure" } } }
    request := { release := true } }

theorem numbersSignals_unconfigured : unconfigured.machine.NumbersSignals := by
  intro d command l hl hended
  change (if command.program = "configure" then _ else _) = _ at hl
  split at hl
  · cases hl
  · cases hl
    cases hended

/-- Without its configure step the simulator is built, and the tests are run. -/
theorem attempts_of_unconfigured :
    unconfigured.machine.RunsEach ∧ unconfigured.machine.NumbersSignals ∧
      ∃ started : List Path, started.Perm [⟨"/t/a"⟩, ⟨"/t/b"⟩] ∧ unconfigured.result.2.attempts =
        { program := "configure" } :: { program := "make" } ::
          { program := "spike", args := ["-f", "/t/a"] } ::
            started.map unconfigured.config.simulator.commandFor := by
  have hm : unconfigured.machine.RunsEach := fun _ count => Turn.complete_inOrder count
  have hs := numbersSignals_unconfigured
  have htests : unconfigured.tests? = .ok [⟨"/t/a"⟩, ⟨"/t/b"⟩] := by decide +kernel
  obtain ⟨-, hpassed⟩ := build_guards_tests hm hs
  obtain ⟨events, -, -, -, hopen⟩ := hpassed _ htests
  obtain ⟨-, started, -, -, hall, -, hattempts⟩ := hopen rfl
  exact ⟨hm, hs, started, hall ⟨rfl, by decide⟩, hattempts⟩

end Session

end Testbench
