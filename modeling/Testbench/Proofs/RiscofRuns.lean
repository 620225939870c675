/-
**The stages of a RISCOF run.**

A RISCOF run is a chain of stages: the build, the copy of the executable into the checkout, the
script of the checkout.  A stage that fails leaves everything behind it undone, and the run fails
with what that stage says.  So the verdict of the script is never about a simulator that was not
built or was not copied, and a success is told only if there is one.

Main definitions:

* `Testbench.Session.riscofResult` — running the compliance tests of a session;
* `Testbench.Riscof.scriptFailure?` — why the script fails;
* `Testbench.Session.RiscofEnds` — the ways in which a RISCOF run ends.

Main results:

* `Testbench.Session.riscofResult_of_unbuilt`, `Testbench.Session.riscofResult_of_uninstalled`,
  `Testbench.Session.riscofResult_of_installed` — what a RISCOF run comes to, by how far it gets;
* `Testbench.Session.riscof_runs_in_stages` — **a RISCOF run goes on as long as its stages
  succeed**.
-/

import Testbench.Proofs.BuildGate
import Testbench.Proofs.Installation

set_option relaxedAutoImplicit false
set_option autoImplicit false

namespace Testbench

/-- The line that tells of a RISCOF run that succeeded. -/
def riscofSuccess : Event := .status "Riscof Success!\n"

/-- Why the script fails, if it does, by what becomes of it: its gate does not open. -/
def Riscof.scriptFailure? (r : Riscof) (launched : Except Fault Lifeline) : Option Failure :=
  (r.command.gateFailure? launched).map fun e => .gateFailed "Riscof" e.1 e.2

theorem Riscof.scriptFailure?_eq_none_iff {r : Riscof} {launched : Except Fault Lifeline} :
    r.scriptFailure? launched = none ↔ ∃ l, launched = .ok l ∧ l.ended = .exited 0 := by
  rw [scriptFailure?, Option.map_eq_none_iff, Command.gateFailure?_eq_none_iff]

/-- What a run makes of what becomes of its script. -/
def riscofEnd (ran : Except (Int × String) Output × Scene) : Except Failure Output × Scene :=
  match ran.1 with
  | .error e => (.error (.gateFailed Riscof.gateName e.1 e.2), ran.2)
  | .ok output => (.ok output, ran.2.add riscofSuccess)

namespace Session

variable (S : Session)

/-- Running the compliance tests of a session. -/
def riscofResult : Except Failure Output × Scene :=
  (runRiscof S.machine S.config S.request).run.run S.scene

/-! ### Stages -/

/-- Passing the gate. -/
def riscofGate : Except Failure Unit × Scene :=
  (passBuildGate S.machine S.config S.request).run.run S.scene

/-- The scene when the executable is copied. -/
def installed (spec : Riscof) (target : Path) (disk : Disk) : Scene :=
  { S.riscofGate.2 with disk }.add (.notice .info "simharness::riscof"
    ("installed " ++ spec.artifact.text ++ " as " ++ target.text))

/-- Running the script. -/
def script (spec : Riscof) (target : Path) (disk : Disk) : Except (Int × String) Output × Scene :=
  (runGate S.machine spec.command { echo := S.request.echoBuild }).run
    (S.installed spec target disk)

theorem value_riscofGate : S.riscofGate.1 = S.verdict := S.value_passBuildGate rfl

theorem disk_riscofGate : S.riscofGate.2.disk = S.gateDisk := (S.performs_passBuildGate rfl).disk

/-- Without compliance tests nothing is done. -/
theorem riscofResult_of_none (h : S.config.riscof = none) : S.riscofResult =
    (.error (.badConfig "no [riscof] section configured and no --dir/--artifact given"),
      S.scene) := by
  rw [riscofResult, runRiscof, h]
  rfl

variable {S} {spec : Riscof}

theorem run_riscofGate {v : Except Failure Unit} (hv : S.verdict = v) :
    (passBuildGate S.machine S.config S.request).run.run S.scene = (v, S.riscofGate.2) :=
  Prod.ext (S.value_riscofGate.trans hv) rfl

/-- A build that fails is the end of a RISCOF run. -/
theorem riscofResult_of_unbuilt {failure : Failure} (h : S.config.riscof = some spec)
    (hv : S.verdict = .error failure) : S.riscofResult = (.error failure, S.riscofGate.2) := by
  rw [riscofResult, runRiscof, h]
  exact run_work_bind_of_error (run_riscofGate hv) _

/-- An executable that cannot be installed is the end of a RISCOF run. -/
theorem riscofResult_of_uninstalled {failure : Failure} (h : S.config.riscof = some spec)
    (hv : S.verdict = .ok ()) (hi : spec.Installing S.gateDisk (.error failure)) :
    S.riscofResult = (.error failure, S.riscofGate.2) := by
  have hinstall : (installArtifact spec).run.run S.riscofGate.2 =
      (.error failure, S.riscofGate.2) :=
    Riscof.run_installArtifact_of_error (by rw [disk_riscofGate, hi.install_eq])
  rw [riscofResult, runRiscof, h]
  refine (run_work_bind_of_ok (run_riscofGate hv) _).trans ?_
  exact run_work_bind_of_error hinstall _

/-- When the executable is installed, the script is run, and decides. -/
theorem riscofResult_of_installed {target : Path} {disk : Disk} (h : S.config.riscof = some spec)
    (hv : S.verdict = .ok ()) (hi : spec.Installing S.gateDisk (.ok (target, disk))) :
    S.riscofResult = riscofEnd (S.script spec target disk) := by
  have hinstall : (installArtifact spec).run.run S.riscofGate.2 =
      (.ok target, { S.riscofGate.2 with disk }) :=
    Riscof.run_installArtifact_of_ok (by rw [disk_riscofGate, hi.install_eq])
  rw [riscofResult, runRiscof, h]
  refine (run_work_bind_of_ok (run_riscofGate hv) _).trans ?_
  refine (run_work_bind_of_ok hinstall _).trans ?_
  -- a notice cannot fail, and neither can the script: what it comes to is looked at behind it
  have hnote : (liftM (note .info "simharness::riscof" ("installed " ++ spec.artifact.text ++
      " as " ++ target.text)) : Work Unit).run.run { S.riscofGate.2 with disk } =
        (.ok (), S.installed spec target disk) := rfl
  have hscript : (liftM (runGate S.machine spec.command { echo := S.request.echoBuild }) :
      Work _).run.run (S.installed spec target disk) =
        (.ok (S.script spec target disk).1, (S.script spec target disk).2) := rfl
  refine (run_work_bind_of_ok hnote _).trans ?_
  refine (run_work_bind_of_ok hscript _).trans ?_
  rw [riscofEnd]
  cases (S.script spec target disk).1 <;> rfl

/-! ### What the stages do -/

theorem milestones_riscofGate : S.riscofGate.2.milestones =
    S.scene.milestones ++ (S.gateMilestones ++ S.verdictLines) :=
  (S.performs_passBuildGate rfl).milestones

theorem milestones_installed (target : Path) (disk : Disk) :
    (S.installed spec target disk).milestones = S.riscofGate.2.milestones :=
  (Scene.milestones_add ..).trans (List.append_nil _)

theorem value_script (target : Path) (disk : Disk) : (S.script spec target disk).1 =
    gateResult spec.command (S.machine.outcome none disk spec.command) := value_runGate ..

/-- The script is run once. -/
theorem performs_script (target : Path) (disk : Disk) :
    Performs (runGate S.machine spec.command { echo := S.request.echoBuild })
      (S.installed spec target disk) (S.machine.episode none disk spec.command)
      (S.machine.diskAfter none disk spec.command) := performs_runGate ..

theorem milestones_script {target : Path} {disk : Disk} (hv : S.verdict = .ok ()) :
    (S.script spec target disk).2.milestones = S.scene.milestones ++
      (S.gateMilestones ++ S.successLines ++ S.machine.episode none disk spec.command) := by
  rw [script, (performs_script target disk).milestones, milestones_installed,
    milestones_riscofGate, verdictLines, hv]
  simp only [List.append_assoc]

/-- **How a RISCOF run ends**: its result, the milestones and the commands that it adds, and the disk
that it leaves.  Each stage is reached only if those before it succeeded. -/
inductive RiscofEnds (S : Session) (spec : Riscof) :
    Except Failure Output → List Event → List Command → Disk → Prop
  /-- The build fails: nothing is copied, and the script is not started. -/
  | unbuilt {failure : Failure} (hbuild : S.buildFailure? = some failure) :
      RiscofEnds S spec (.error failure) S.gateMilestones S.gateCommands S.gateDisk
  /-- The executable cannot be installed: the script is not started.  The disk is as the gate has
  left it, since a copy that fails when it has begun is left out. -/
  | uninstalled {failure : Failure} (hbuild : S.buildFailure? = none)
      (hinstall : spec.Installing S.gateDisk (.error failure)) :
      RiscofEnds S spec (.error failure) (S.gateMilestones ++ S.successLines) S.gateCommands
        S.gateDisk
  /-- The script is run where the executable is installed, and fails. -/
  | failed {target : Path} {disk : Disk} {failure : Failure} (hbuild : S.buildFailure? = none)
      (hinstall : spec.Installing S.gateDisk (.ok (target, disk)))
      (hscript : spec.scriptFailure? (S.machine.launch disk spec.command) = some failure) :
      RiscofEnds S spec (.error failure)
        (S.gateMilestones ++ S.successLines ++ S.machine.episode none disk spec.command)
        (S.gateCommands ++ [spec.command]) (S.machine.diskAfter none disk spec.command)
  /-- The script is run where the executable is installed, and succeeds. -/
  | passed {target : Path} {disk : Disk} {l : Lifeline} (hbuild : S.buildFailure? = none)
      (hinstall : spec.Installing S.gateDisk (.ok (target, disk)))
      (hscript : S.machine.launch disk spec.command = .ok l) (hended : l.ended = .exited 0) :
      RiscofEnds S spec (.ok (outputOf l none))
        (S.gateMilestones ++ S.successLines ++ S.machine.episode none disk spec.command ++
          [riscofSuccess])
        (S.gateCommands ++ [spec.command]) (S.machine.diskAfter none disk spec.command)

namespace RiscofEnds

variable {result : Except Failure Output} {events : List Event} {commands : List Command}
  {disk : Disk}

/-- The starts that are tried are those of the commands. -/
theorem attempted (h : S.RiscofEnds spec result events commands disk) :
    events.filterMap Event.attempted? = commands := by
  have hgate : S.gateMilestones.filterMap Event.attempted? = S.gateCommands :=
    S.machine.attempts_episodes ..
  have htold : [riscofSuccess].filterMap Event.attempted? = [] := rfl
  cases h <;> simp [List.filterMap_append, hgate, attempts_successLines, htold, Machine.attempts_episode]

/-- A success is told exactly if there is one. -/
theorem told_iff (h : S.RiscofEnds spec result events commands disk) :
    riscofSuccess ∈ events ↔ ∃ output, result = .ok output := by
  have hgate : riscofSuccess ∉ S.gateMilestones := S.machine.status_not_mem_episodes _ _ _ _
  have hbuilt : riscofSuccess ∉ S.successLines := by
    rw [successLines]
    split <;> simp [riscofSuccess, buildSuccess]
  have hscript : ∀ d, riscofSuccess ∉ S.machine.episode none d spec.command :=
    fun d => S.machine.status_not_mem_episode _ d _ _
  cases h <;> simp [hgate, hbuilt, hscript]

/-- A run succeeds exactly if all of its stages do. -/
theorem succeeds_iff (h : S.RiscofEnds spec result events commands disk) :
    (∃ output, result = .ok output) ↔ S.buildFailure? = none ∧ ∃ target disk l,
      spec.Installing S.gateDisk (.ok (target, disk)) ∧
        S.machine.launch disk spec.command = .ok l ∧ l.ended = .exited 0 := by
  cases h with
  | unbuilt hbuild => simp [hbuild]
  | uninstalled hbuild hinstall =>
      constructor
      · rintro ⟨output, ⟨⟩⟩
      · rintro ⟨-, target, disk, l, hinstall', -⟩
        cases hinstall.install_eq.symm.trans hinstall'.install_eq
  | failed hbuild hinstall hscript =>
      constructor
      · rintro ⟨output, ⟨⟩⟩
      · rintro ⟨-, target, disk, l, hinstall', hlaunch, hended⟩
        cases hinstall.install_eq.symm.trans hinstall'.install_eq
        rw [Riscof.scriptFailure?_eq_none_iff.2 ⟨l, hlaunch, hended⟩] at hscript
        cases hscript
  | passed hbuild hinstall hscript hended =>
      exact ⟨fun _ => ⟨hbuild, _, _, _, hinstall, hscript, hended⟩, fun _ => ⟨_, rfl⟩⟩

end RiscofEnds

/-- Where the executable is installed, the script decides how a RISCOF run ends. -/
theorem exists_riscofEnds_of_installed (hs : S.machine.NumbersSignals)
    (hbuild : S.buildFailure? = none) (hv : S.verdict = .ok ()) {target : Path} {disk : Disk}
    (hinstall : spec.Installing S.gateDisk (.ok (target, disk))) :
    ∃ events commands,
      S.RiscofEnds spec (riscofEnd (S.script spec target disk)).1 events commands
          (riscofEnd (S.script spec target disk)).2.disk ∧
        (riscofEnd (S.script spec target disk)).2.milestones = S.scene.milestones ++ events := by
  have hmilestones : (S.script spec target disk).2.milestones = _ := milestones_script hv
  have hdisk : (S.script spec target disk).2.disk = S.machine.diskAfter none disk spec.command :=
    (performs_script target disk).disk
  rw [riscofEnd, value_script]
  cases hscript : spec.scriptFailure? (S.machine.launch disk spec.command) with
  | some failure =>
      obtain ⟨e, he, rfl⟩ := Option.map_eq_some_iff.1 hscript
      rw [(gateResult_outcome_eq_error_iff hs).2 he]
      dsimp only
      rw [hdisk]
      exact ⟨_, _, .failed hbuild hinstall hscript, hmilestones⟩
  | none =>
      obtain ⟨l, hlaunch, hended⟩ := Riscof.scriptFailure?_eq_none_iff.1 hscript
      rw [gateResult_outcome_of_exited hlaunch hended]
      dsimp only
      rw [Scene.add_disk, hdisk]
      refine ⟨_, _, .passed hbuild hinstall hlaunch hended, ?_⟩
      rw [Scene.milestones_add, hmilestones, List.append_assoc]
      rfl

/-- Every RISCOF run ends in one of the ways. -/
theorem exists_riscofEnds (hs : S.machine.NumbersSignals) (h : S.config.riscof = some spec) :
    ∃ events commands,
      S.RiscofEnds spec S.riscofResult.1 events commands S.riscofResult.2.disk ∧
        S.riscofResult.2.milestones = S.scene.milestones ++ events := by
  have hv := S.verdict_eq hs
  cases hbuild : S.buildFailure? with
  | some failure =>
      rw [hbuild] at hv
      rw [riscofResult_of_unbuilt h hv, disk_riscofGate]
      refine ⟨_, _, .unbuilt hbuild, ?_⟩
      rw [milestones_riscofGate, verdictLines, hv, List.append_nil]
  | none =>
      rw [hbuild] at hv
      obtain ⟨_ | ⟨target, disk⟩, hinstall⟩ := spec.exists_installing S.gateDisk
      · rw [riscofResult_of_uninstalled h hv hinstall, disk_riscofGate]
        refine ⟨_, _, .uninstalled hbuild hinstall, ?_⟩
        rw [milestones_riscofGate, verdictLines, hv]
      · rw [riscofResult_of_installed h hv hinstall]
        exact exists_riscofEnds_of_installed hs hbuild hv hinstall

/-- The commands of the gate are those of the build, if one is configured and not skipped. -/
theorem mem_gateCommands_iff {command : Command} :
    command ∈ S.gateCommands ↔ ∃ build, S.config.build = some build ∧
      S.request.skipBuild = false ∧ command ∈ build.commands S.request.release := by
  rw [gateCommands, build?, RunRequest.build?]
  cases S.request.skipBuild with
  | true => simp
  | false => cases S.config.build <;> simp

/-- **A RISCOF run goes on as long as its stages succeed.**  Without compliance tests nothing is
done at all.  Else the gate of the build is passed, if there is one; the executable is installed
where the gate has left the disk; and the script is run in the checkout, once.  The first stage that
fails is the last one, and its failure is that of the run.  The run succeeds exactly if every stage
does, and tells of it exactly then. -/
theorem riscof_runs_in_stages (hs : S.machine.NumbersSignals) :
    (S.config.riscof = none → S.riscofResult =
      (.error (.badConfig "no [riscof] section configured and no --dir/--artifact given"),
        S.scene)) ∧
      ∀ spec, S.config.riscof = some spec → spec.command.workdir = some spec.dir ∧
        (∀ command, command ∈ S.gateCommands ↔ ∃ build, S.config.build = some build ∧
          S.request.skipBuild = false ∧ command ∈ build.commands S.request.release) ∧
        ∃ events commands,
          S.RiscofEnds spec S.riscofResult.1 events commands S.riscofResult.2.disk ∧
          S.riscofResult.2.milestones = S.scene.milestones ++ events ∧
          S.riscofResult.2.attempts = S.scene.attempts ++ commands ∧
          (riscofSuccess ∈ events ↔ ∃ output, S.riscofResult.1 = .ok output) ∧
          ((∃ output, S.riscofResult.1 = .ok output) ↔
            S.buildFailure? = none ∧ ∃ target disk l,
              spec.Installing S.gateDisk (.ok (target, disk)) ∧
                S.machine.launch disk spec.command = .ok l ∧ l.ended = .exited 0) := by
  refine ⟨S.riscofResult_of_none, fun spec h => ⟨rfl, fun _ => mem_gateCommands_iff, ?_⟩⟩
  obtain ⟨events, commands, hends, hmilestones⟩ := exists_riscofEnds hs h
  have hattempts : S.riscofResult.2.attempts = S.scene.attempts ++ commands := by
    rw [attempts_append hmilestones, hends.attempted]
  exact ⟨events, commands, hends, hmilestones, hattempts, hends.told_iff, hends.succeeds_iff⟩

/-- A simulator that is built, and whose signatures the script does not like. -/
def mismatched : Session where
  machine :=
    { launch := fun disk command =>
        let builds := command.program = "make"
        .ok
          { directory := ["checkout"]
            writes := if builds then [] else [(⟨0⟩, Utf8.encode "signature mismatch\n")]
            endsAt := ⟨1⟩, ended := .exited (if builds then 0 else 4), goneAt := ⟨1⟩
            leaves := fun _ => disk, group := 1 } }
  config :=
    { twoTests.config with
      build := some { command := { program := "make" } }
      riscof := some
        { dir := ⟨"/checkout"⟩, artifact := ⟨"/Vtop"⟩, script := Riscof.defaultScript } }
  request := {}
  scene :=
    { disk := { nodes := [(["checkout"], .directory), (["Vtop"], .file [1] true)] } }

theorem numbersSignals_mismatched : mismatched.machine.NumbersSignals := by
  intro d command l hl hended
  cases hl
  cases hended

/-- The script is run once, behind the build, and no success is told. -/
theorem riscofResult_of_mismatched : mismatched.machine.NumbersSignals ∧
    mismatched.riscofResult.1 = .error (.gateFailed "Riscof" 4 "signature mismatch\n") ∧
      riscofSuccess ∉ mismatched.riscofResult.2.milestones ∧
        mismatched.riscofResult.2.attempts = [{ program := "make" },
          { program := "/checkout/./run-test.sh", workdir := some ⟨"/checkout"⟩ }] := by
  have hs := numbersSignals_mismatched
  have hresult : mismatched.riscofResult.1 =
      .error (.gateFailed "Riscof" 4 "signature mismatch\n") := by decide +kernel
  obtain ⟨-, hstages⟩ := riscof_runs_in_stages hs
  obtain ⟨-, -, events, commands, hends, hmilestones, hattempts, htold, -⟩ := hstages _ rfl
  rw [hresult] at htold hends
  generalize mismatched.riscofResult.2.disk = disk at hends
  refine ⟨hs, hresult, ?_, ?_⟩
  · rw [hmilestones]
    change riscofSuccess ∉ events
    rw [htold]
    rintro ⟨output, ⟨⟩⟩
  · rw [hattempts]
    cases hends with
    | unbuilt hbuild => exact absurd hbuild (by decide)
    | uninstalled hbuild hinstall => cases hinstall
    | failed hbuild hinstall hscript => rfl

end Session

end Testbench
