/-
**The programs of a run.**

What a run does with programs can be read off its trace.  The start of a program is tried; then it
is either refused, or the program is started and ends.  This is an episode, and no episode begins
before the one before it is over: the actions of a run do nothing with programs but run a list of
commands, one after the other, each on the disk that the one before it left.  So all that needs to
be known of an action is its list of commands and what it shows in between.

Main definitions:

* `Testbench.Scene.milestones` — what a trace tells of programs and of what was shown;
* `Testbench.Machine.outcome`, `Testbench.Machine.diskAfter`, `Testbench.Machine.episode` — one
  command;
* `Testbench.Machine.disksAfter`, `Testbench.Machine.episodes` — one command after the other;
* `Testbench.Performs` — what an action does with programs;
* `Testbench.BuildSpec.commands`, `Testbench.BuildSpec.diskForBuild` — the commands of a build;
* `Testbench.Batch.started` — the tests that are started, in order.

Main results:

* `Testbench.performs_bind` — one action after another;
* `Testbench.performs_execute`, `Testbench.performs_runTest`, `Testbench.performs_buildSimulator` —
  the actions of a run;
* `Testbench.Batch.performs_after`, `Testbench.Batch.performs_runTests` — **tests at work run the
  simulator once for every test that is started, in the order in which they are taken up**.
-/

import Mathlib.Data.List.Basic
import Testbench.Proofs.Frames
import Testbench.Proofs.Turns

set_option relaxedAutoImplicit false
set_option autoImplicit false

namespace Testbench

variable {α β : Type}

/-! ### Milestones -/

/-- The event tells of a program, or of something that was shown to the person who watches. -/
def Event.isMilestone : Event → Bool
  | .attempted _ | .started .. | .refused .. | .ended .. | .status _ => true
  | .echoed _ | .progress _ | .notice .. => false

/-- The command whose start an event tries. -/
def Event.attempted? : Event → Option Command
  | .attempted command => some command
  | _ => none

namespace Scene

/-- What the trace tells of programs and of what was shown. -/
def milestones (s : Scene) : List Event := s.trace.filter Event.isMilestone

theorem milestones_add (s : Scene) (e : Event) :
    (s.add e).milestones = s.milestones ++ [e].filter Event.isMilestone := by
  rw [milestones, add_trace, List.filter_append, milestones]

/-- The milestones tell of all programs whose start was tried. -/
theorem attempts_eq (s : Scene) : s.attempts = s.milestones.filterMap Event.attempted? := by
  have hsame : ∀ e : Event,
      (if e.isMilestone then e.attempted? else none) = e.attempted? := by
    intro e
    cases e <;> rfl
  rw [milestones, List.filterMap_filter, funext hsame, attempts]
  refine List.filterMap_congr fun e _ => ?_
  cases e <;> rfl

end Scene

/-! ### One command after the other -/

namespace Machine

variable (m : Machine) (limit : Option Span)

/-- What a command comes to on a disk. -/
def outcome (d : Disk) (command : Command) : Except Fault Output :=
  (m.launch d command).map (outputOf · limit)

/-- The disk after a command. -/
def diskAfter (d : Disk) (command : Command) : Disk :=
  match m.launch d command with
  | .error _ => d
  | .ok l => l.leaves (l.killedAt limit)

/-- The milestones of a command. -/
def episode (d : Disk) (command : Command) : List Event :=
  .attempted command ::
    match m.launch d command with
    | .error fault => [.refused command fault]
    | .ok l => [.started command l.directory, .ended command (l.ending limit)]

/-- The disk after some commands. -/
def disksAfter (d : Disk) (commands : List Command) : Disk := commands.foldl (m.diskAfter limit) d

/-- The milestones of some commands, each on the disk that those before it left. -/
def episodes : Disk → List Command → List Event
  | _, [] => []
  | d, command :: commands =>
      m.episode limit d command ++ episodes (m.diskAfter limit d command) commands

theorem disksAfter_append (d : Disk) (cs cs' : List Command) :
    m.disksAfter limit d (cs ++ cs') = m.disksAfter limit (m.disksAfter limit d cs) cs' :=
  List.foldl_append

theorem episodes_append (d : Disk) (cs cs' : List Command) :
    m.episodes limit d (cs ++ cs') =
      m.episodes limit d cs ++ m.episodes limit (m.disksAfter limit d cs) cs' := by
  induction cs generalizing d with
  | nil => rfl
  | cons c cs ih =>
      rw [List.cons_append, episodes, ih, episodes, List.append_assoc]
      rfl

@[simp] theorem episodes_singleton (d : Disk) (command : Command) :
    m.episodes limit d [command] = m.episode limit d command := List.append_nil _

/-- An episode tries one start. -/
theorem attempts_episode (d : Disk) (command : Command) :
    (m.episode limit d command).filterMap Event.attempted? = [command] := by
  rw [episode]
  cases m.launch d command <;> rfl

/-- Episodes try the starts of their commands, in order. -/
theorem attempts_episodes (d : Disk) (commands : List Command) :
    (m.episodes limit d commands).filterMap Event.attempted? = commands := by
  induction commands generalizing d with
  | nil => rfl
  | cons command commands ih =>
      rw [episodes, List.filterMap_append, attempts_episode, ih]
      rfl

/-- Nothing is shown within an episode. -/
theorem status_not_mem_episode (d : Disk) (command : Command) (text : String) :
    .status text ∉ m.episode limit d command := by
  rw [episode]
  cases m.launch d command <;> simp

theorem status_not_mem_episodes (d : Disk) (commands : List Command) (text : String) :
    .status text ∉ m.episodes limit d commands := by
  induction commands generalizing d with
  | nil => exact List.not_mem_nil
  | cons command commands ih =>
      rw [episodes, List.mem_append, not_or]
      exact ⟨m.status_not_mem_episode limit d command text, ih _⟩

end Machine

/-! ### Actions -/

/-- **What an action does with programs** in a scene: the milestones that it adds, and the disk that
it leaves. -/
structure Performs (x : Flow α) (s : Scene) (events : List Event) (d : Disk) : Prop where
  milestones : (x.run s).2.milestones = s.milestones ++ events
  disk : (x.run s).2.disk = d

/-- An action that does nothing with programs and shows nothing. -/
structure Quiet (x : Flow α) : Prop where
  performs : ∀ s, Performs x s [] s.disk

theorem quiet_pure (a : α) : Quiet (pure a : Flow α) :=
  ⟨fun _ => ⟨(List.append_nil _).symm, rfl⟩⟩

/-- One action after another. -/
theorem performs_bind {x : Flow α} {f : α → Flow β} {s : Scene} {events events' : List Event}
    {d d' : Disk} (hx : Performs x s events d)
    (hf : Performs (f (x.run s).1) (x.run s).2 events' d') :
    Performs (x >>= f) s (events ++ events') d' where
  milestones := by
    rw [run_bind, hf.milestones, hx.milestones, List.append_assoc]
  disk := by rw [run_bind, hf.disk]

theorem performs_quiet_bind {x : Flow α} {f : α → Flow β} {s : Scene} {events : List Event}
    {d : Disk} (hx : Quiet x) (hf : Performs (f (x.run s).1) (x.run s).2 events d) :
    Performs (x >>= f) s events d := performs_bind (hx.performs s) hf

theorem performs_bind_quiet {x : Flow α} {f : α → Flow β} {s : Scene} {events : List Event}
    {d : Disk} (hx : Performs x s events d) (hf : ∀ a, Quiet (f a)) :
    Performs (x >>= f) s events d := by
  have h := performs_bind hx ((hf (x.run s).1).performs (x.run s).2)
  rwa [List.append_nil, hx.disk] at h

theorem quiet_bind {x : Flow α} {f : α → Flow β} (hx : Quiet x) (hf : ∀ a, Quiet (f a)) :
    Quiet (x >>= f) := ⟨fun s => performs_bind_quiet (hx.performs s) hf⟩

theorem performs_emit (e : Event) (s : Scene) :
    Performs (emit e) s ([e].filter Event.isMilestone) s.disk := ⟨s.milestones_add e, rfl⟩

/-- An action that lets an event happen when its value is known. -/
theorem performs_bind_emit {x : Flow α} {s : Scene} {events : List Event} {d : Disk}
    (hx : Performs x s events d) (e : α → Event) (g : α → β) :
    Performs (do let a ← x; emit (e a); return g a) s
      (events ++ [e (x.run s).1].filter Event.isMilestone) d := by
  have hemit := performs_bind_quiet (performs_emit (e (x.run s).1) (x.run s).2)
    fun _ => quiet_pure (g (x.run s).1)
  rw [hx.disk] at hemit
  exact performs_bind hx hemit

theorem quiet_note (level : Level) (origin text : String) : Quiet (note level origin text) :=
  ⟨fun s => performs_emit _ s⟩

theorem quiet_warnIfAny (origin : String) (warning : Option String) :
    Quiet (warnIfAny origin warning) := by
  cases warning with
  | none => exact quiet_pure ()
  | some text => exact quiet_note ..

theorem quiet_draw (text : String) : Quiet (draw text) := by
  rw [draw]
  split
  · exact quiet_pure ()
  · exact ⟨fun s => performs_emit _ s⟩

theorem quiet_countResult (p : Progress) (r : TestResult) : Quiet (countResult p r) :=
  quiet_bind (quiet_draw _) fun _ => quiet_pure _

/-! ### One program -/

theorem filter_echoEvents (l : Lifeline) (limit : Option Span) :
    (echoEvents l limit).filter Event.isMilestone = [] := by
  rw [List.filter_eq_nil_iff]
  intro e he
  obtain ⟨bytes, -, rfl⟩ := List.mem_map.1 he
  exact Bool.false_ne_true

theorem filter_killEvents (l : Lifeline) (limit : Option Span) :
    (killEvents l limit).filter Event.isMilestone = [] := by
  rw [killEvents]
  cases l.killedAt limit <;> rfl

theorem milestones_attempt (s : Scene) (command : Command) :
    (s.attempt command).milestones = s.milestones ++ [.attempted command] := by
  rw [Scene.attempt, Scene.milestones_add, Scene.milestones_add, List.append_assoc]
  rfl

theorem milestones_afterRun (s : Scene) (command : Command) (options : ExecOptions)
    (l : Lifeline) : (s.afterRun command options l).milestones = s.milestones ++
      [.started command l.directory, .ended command (l.ending options.timeout)] := by
  have hecho : (if options.echo then echoEvents l options.timeout else []).filter
      Event.isMilestone = [] := by
    cases options.echo with
    | false => rfl
    | true => exact filter_echoEvents l options.timeout
  rw [Scene.milestones, Scene.afterRun, List.filter_append, List.filter_append,
    List.filter_append, List.filter_append, hecho, filter_killEvents]
  rfl

theorem value_execute (m : Machine) (command : Command) (options : ExecOptions) (s : Scene) :
    ((execute m command options).run s).1 = m.outcome options.timeout s.disk command := by
  rw [run_execute, Machine.outcome]
  cases m.launch s.disk command <;> rfl

/-- Running a command is an episode. -/
theorem performs_execute (m : Machine) (command : Command) (options : ExecOptions) (s : Scene) :
    Performs (execute m command options) s (m.episode options.timeout s.disk command)
      (m.diskAfter options.timeout s.disk command) where
  milestones := by
    rw [run_execute, Machine.episode]
    cases m.launch s.disk command with
    | error fault =>
        change ((s.attempt command).add _).milestones = _
        rw [Scene.milestones_add, milestones_attempt, List.append_assoc]
        rfl
    | ok l =>
        change ((s.attempt command).afterRun command options l).milestones = _
        rw [milestones_afterRun, milestones_attempt, List.append_assoc]
        rfl
  disk := by
    rw [run_execute, Machine.diskAfter]
    cases m.launch s.disk command <;> rfl

theorem value_runTest (m : Machine) (simulator : Simulator) (options : ExecOptions) (test : Path)
    (s : Scene) : ((runTest m simulator options test).run s).1 =
      testResult test (m.outcome options.timeout s.disk (simulator.commandFor test)) :=
  congrArg (testResult test) (value_execute m (simulator.commandFor test) options s)

theorem performs_runTest (m : Machine) (simulator : Simulator) (options : ExecOptions)
    (test : Path) (s : Scene) : Performs (runTest m simulator options test) s
      (m.episode options.timeout s.disk (simulator.commandFor test))
      (m.diskAfter options.timeout s.disk (simulator.commandFor test)) :=
  performs_bind_quiet (performs_execute ..) fun _ =>
    quiet_bind (quiet_note ..) fun _ => quiet_pure _

/-! ### The build -/

namespace BuildSpec

/-- The command that is run before the build, in a release. -/
def configureCommands (spec : BuildSpec) (release : Bool) : List Command :=
  if release then spec.releaseConfigure.toList else []

/-- The commands of a build, in order. -/
def commands (spec : BuildSpec) (release : Bool) : List Command :=
  spec.configureCommands release ++ [spec.command]

/-- The disk that the build finds: the one that the command before it left. -/
def diskForBuild (spec : BuildSpec) (release : Bool) (m : Machine) (d : Disk) : Disk :=
  m.disksAfter none d (spec.configureCommands release)

/-- What the command of the build comes to. -/
def outcome (spec : BuildSpec) (release : Bool) (m : Machine) (d : Disk) : Except Fault Output :=
  m.outcome none (spec.diskForBuild release m d) spec.command

end BuildSpec

theorem value_runGate (m : Machine) (command : Command) (options : ExecOptions) (s : Scene) :
    ((runGate m command options).run s).1 =
      gateResult command (m.outcome options.timeout s.disk command) :=
  congrArg (gateResult command) (value_execute m command options _)

theorem performs_runGate (m : Machine) (command : Command) (options : ExecOptions) (s : Scene) :
    Performs (runGate m command options) s (m.episode options.timeout s.disk command)
      (m.diskAfter options.timeout s.disk command) := by
  rw [runGate]
  refine performs_quiet_bind (quiet_note ..) ?_
  exact performs_bind_quiet (performs_execute ..) fun _ => quiet_pure _

theorem performs_configureRelease (m : Machine) (spec : BuildSpec) (options : ExecOptions)
    (s : Scene) : Performs (configureRelease m spec options) s
      (m.episodes options.timeout s.disk spec.releaseConfigure.toList)
      (m.disksAfter options.timeout s.disk spec.releaseConfigure.toList) := by
  rw [configureRelease]
  cases spec.releaseConfigure with
  | none => exact (quiet_note ..).performs s
  | some command =>
      rw [Option.toList_some, Machine.episodes_singleton]
      exact performs_bind_quiet (performs_execute ..) fun _ => quiet_warnIfAny ..

/-- The scene in which the gate of a build is run. -/
def sceneForBuild (m : Machine) (spec : BuildSpec) (release echo : Bool) (s : Scene) : Scene :=
  if release then ((configureRelease m spec { echo }).run s).2 else s

theorem milestones_sceneForBuild (m : Machine) (spec : BuildSpec) (release echo : Bool)
    (s : Scene) : (sceneForBuild m spec release echo s).milestones =
      s.milestones ++ m.episodes none s.disk (spec.configureCommands release) := by
  cases release with
  | false => exact (List.append_nil _).symm
  | true => exact (performs_configureRelease m spec { echo } s).milestones

theorem disk_sceneForBuild (m : Machine) (spec : BuildSpec) (release echo : Bool) (s : Scene) :
    (sceneForBuild m spec release echo s).disk = spec.diskForBuild release m s.disk := by
  cases release with
  | false => rfl
  | true => exact (performs_configureRelease m spec { echo } s).disk

/-- What a build makes of the result of its gate. -/
def buildResult : Except (Int × String) Output → Except Failure Output
  | .ok output => .ok output
  | .error (code, output) => .error (.buildFailed code output)

/-- Building is running the gate where the configure step has left the disk. -/
theorem run_buildSimulator (m : Machine) (spec : BuildSpec) (release echo : Bool) (s : Scene) :
    (buildSimulator m spec release echo).run.run s =
      (buildResult ((runGate m spec.command { echo }).run (sceneForBuild m spec release echo s)).1,
        ((runGate m spec.command { echo }).run (sceneForBuild m spec release echo s)).2) := by
  have hgate : ∀ s, (buildSimulator m spec false echo).run.run s =
      (buildResult ((runGate m spec.command { echo }).run s).1,
        ((runGate m spec.command { echo }).run s).2) := by
    intro s
    refine (run_work_bind (liftM (runGate m spec.command { echo })) _ s).trans ?_
    have hlift : (liftM (runGate m spec.command { echo }) : Work _).run.run s =
        (.ok ((runGate m spec.command { echo }).run s).1,
          ((runGate m spec.command { echo }).run s).2) := rfl
    rw [hlift]
    cases ((runGate m spec.command { echo }).run s).1 <;> rfl
  cases release with
  | false => exact hgate s
  | true => exact hgate (sceneForBuild m spec true echo s)

theorem value_buildSimulator (m : Machine) (spec : BuildSpec) (release echo : Bool) (s : Scene) :
    ((buildSimulator m spec release echo).run.run s).1 =
      buildResult (gateResult spec.command (spec.outcome release m s.disk)) := by
  rw [run_buildSimulator, value_runGate, disk_sceneForBuild]
  rfl

theorem performs_buildSimulator (m : Machine) (spec : BuildSpec) (release echo : Bool)
    (s : Scene) : Performs (buildSimulator m spec release echo).run s
      (m.episodes none s.disk (spec.commands release))
      (m.disksAfter none s.disk (spec.commands release)) where
  milestones := by
    rw [run_buildSimulator, (performs_runGate ..).milestones, milestones_sceneForBuild,
      disk_sceneForBuild, BuildSpec.commands, Machine.episodes_append, Machine.episodes_singleton,
      List.append_assoc]
    rfl
  disk := by
    rw [run_buildSimulator, (performs_runGate ..).disk, disk_sceneForBuild, BuildSpec.commands,
      Machine.disksAfter_append]
    rfl

/-! ### Tests at work -/

namespace Batch

variable {b : Batch α} {pre post : List Turn}

/-- The tests that are started in some turns, in the order in which they are taken up. -/
def started (b : Batch α) (turns : List Turn) : List Path :=
  ((Turn.starts turns).filter b.clearAt).filterMap (b.tests[·]?)

/-- The commands that run the tests that are started in some turns. -/
def startedCommands (b : Batch α) (turns : List Turn) : List Command :=
  (b.started turns).map b.simulator.commandFor

theorem startedCommands_append (b : Batch α) (pre post : List Turn) :
    b.startedCommands (pre ++ post) = b.startedCommands pre ++ b.startedCommands post := by
  rw [startedCommands, started, Turn.starts_append, List.filter_append, List.filterMap_append,
    List.map_append]
  rfl

theorem startedCommands_of_none {t : Turn} (b : Batch α) (h : t.started? = none) :
    b.startedCommands [t] = [] := by
  have hstarts : Turn.starts [t] = [] := List.filterMap_cons_none h
  rw [startedCommands, started, hstarts]
  rfl

theorem startedCommands_start (b : Batch α) {i : Nat} (hi : i < b.tests.length) :
    b.startedCommands [.start i] =
      if b.clearAt i then [b.simulator.commandFor b.tests[i]] else [] := by
  have hstarts : Turn.starts [.start i] = [i] := rfl
  rw [startedCommands, started, hstarts]
  cases hclear : b.clearAt i with
  | false => simp [hclear]
  | true => simp [hclear, List.getElem?_eq_getElem hi]

/-- The pool knows of an interrupt when a test is taken up. -/
theorem interrupted_after_eq {i : Nat} (hc : b.Complete)
    (hturns : b.turns = pre ++ .start i :: post) :
    (b.after pre).1.1.interrupted = !b.clearAt i := by
  rw [(message_of_turns_eq hc hturns).1, ← pool_recording,
    (follows_after hc pre _ hturns).interrupted, Bool.not_not]

/-- What one turn does with programs. -/
theorem performs_turn (hc : b.Complete) (hq : ∀ a r, Quiet (b.observe a r)) {t : Turn}
    (hturns : b.turns = pre ++ t :: post) :
    Performs (Pool.turn b.tests b.runOne b.observe (b.after pre).1 t) (b.after pre).2
      (b.machine.episodes b.options.timeout (b.after pre).2.disk (b.startedCommands [t]))
      (b.machine.disksAfter b.options.timeout (b.after pre).2.disk (b.startedCommands [t])) := by
  cases t with
  | interrupt =>
      rw [startedCommands_of_none b rfl]
      exact (quiet_pure _).performs _
  | deliver i =>
      rw [startedCommands_of_none b rfl, Pool.turn]
      rcases Pool.take i (b.after pre).1.1.mail with _ | ⟨_ | r, mail⟩
      · exact (quiet_pure _).performs _
      · exact (quiet_pure _).performs _
      · exact (quiet_bind (hq _ r) fun _ => quiet_pure _).performs _
  | start i =>
      have hi : i < b.tests.length := by
        rw [Complete, hturns] at hc
        exact hc.lt_of_start
      rw [startedCommands_start b hi, Pool.turn, List.getElem?_eq_getElem hi]
      have hflag := interrupted_after_eq hc hturns
      cases hclear : b.clearAt i with
      | false =>
          rw [hclear] at hflag
          simp only [hflag]
          exact (quiet_pure _).performs _
      | true =>
          rw [hclear] at hflag
          simp only [hflag, if_true, Machine.episodes_singleton]
          exact performs_bind_quiet (performs_runTest ..) fun _ => quiet_pure _

/-- **What the tests at work do with programs** up to some turn. -/
theorem performs_after (hc : b.Complete) (hq : ∀ a r, Quiet (b.observe a r)) :
    ∀ pre post, b.turns = pre ++ post →
      (b.after pre).2.milestones = b.scene.milestones ++
          b.machine.episodes b.options.timeout b.scene.disk (b.startedCommands pre) ∧
        (b.after pre).2.disk =
          b.machine.disksAfter b.options.timeout b.scene.disk (b.startedCommands pre) := by
  intro pre
  -- a beginning of the turns grows at its end
  induction pre using List.reverseRecOn with
  | nil =>
      intro _ _
      exact ⟨b.scene.milestones_add _, rfl⟩
  | append_singleton pre t ih =>
      intro post hturns
      rw [List.append_assoc, List.singleton_append] at hturns
      obtain ⟨hmilestones, hdisk⟩ := ih (t :: post) hturns
      have hturn := performs_turn hc hq hturns
      rw [after_concat, startedCommands_append, Machine.episodes_append,
        Machine.disksAfter_append, ← hdisk, ← List.append_assoc, ← hmilestones]
      exact ⟨hturn.milestones, hturn.disk⟩

/-- Running all tests. -/
theorem performs_runTests (hc : b.Complete) (hq : ∀ a r, Quiet (b.observe a r)) :
    Performs (runTests b.machine b.tests b.simulator b.options b.observe b.seen) b.scene
      (b.machine.episodes b.options.timeout b.scene.disk (b.startedCommands b.turns))
      (b.machine.disksAfter b.options.timeout b.scene.disk (b.startedCommands b.turns)) := by
  by_cases hnil : b.tests = []
  · -- without tests the turns are not looked at, and there is nothing that they could start
    have hcommands : b.startedCommands b.turns = [] := by
      rw [startedCommands, started, hnil]
      simp
    have hresult : (runTests b.machine b.tests b.simulator b.options b.observe b.seen).run b.scene =
        (({}, b.seen), b.scene) := result_of_nil hnil
    rw [hcommands]
    exact ⟨by rw [hresult]; exact (List.append_nil _).symm, by rw [hresult]; rfl⟩
  · have hresult := result_of_ne_nil hnil
    obtain ⟨hmilestones, hdisk⟩ := performs_after hc hq b.turns [] (List.append_nil _).symm
    exact ⟨(congrArg (·.2.milestones) hresult).trans hmilestones,
      (congrArg (·.2.disk) hresult).trans hdisk⟩

end Batch

end Testbench
