/-
**How a run is put together.**

The actions of a run are put together from a few that do something by themselves: a program is run,
an event is let happen.  So a property of actions that these few have, and that is kept when one
action follows another, is a property of everything that a run does.  How a run is put together is
said here once for all such properties.

Main definitions:

* `Testbench.Composes` — a property of actions that is kept when one follows another.

Main results:

* `Testbench.Composes.foldlM`, `Testbench.Composes.work_bind`, `Testbench.Composes.lift` — it is
  kept by loops, and by actions that may fail;
* `Testbench.Composes.runTests`, `Testbench.Composes.passBuildGate`, `Testbench.Composes.runSmoke`,
  `Testbench.Composes.announce` — **it holds of the steps of a run**, if it holds of the programs
  that they run and of the events that they let happen.
-/

import Testbench.Run.Session

set_option relaxedAutoImplicit false
set_option autoImplicit false

namespace Testbench

/-- A property of actions that is **kept when one action follows another**. -/
structure Composes (Q : ∀ {α : Type}, Flow α → Prop) : Prop where
  pure : ∀ {α : Type} (a : α), Q (pure a : Flow α)
  bind : ∀ {α β : Type} {x : Flow α} {f : α → Flow β}, Q x → (∀ a, Q (f a)) → Q (x >>= f)

namespace Composes

variable {α β : Type} {Q : ∀ {α : Type}, Flow α → Prop} (hQ : Composes Q)
include hQ

/-! ### Actions in general -/

theorem map {x : Flow α} (f : α → β) (hx : Q x) : Q (f <$> x) := by
  rw [map_eq_pure_bind]
  exact hQ.bind hx fun a => hQ.pure (f a)

/-- Steps one after the other. -/
theorem foldlM {step : β → α → Flow β} (h : ∀ b a, Q (step b a)) (xs : List α) :
    ∀ b, Q (xs.foldlM step b) := by
  induction xs with
  | nil => exact fun b => hQ.pure b
  | cons a xs ih =>
      intro b
      rw [List.foldlM_cons]
      exact hQ.bind (h b a) ih

/-- One action after another that may fail. -/
theorem work_bind {x : Work α} {f : α → Work β} (hx : Q x.run) (hf : ∀ a, Q (f a).run) :
    Q (x >>= f).run := by
  rw [ExceptT.run_bind]
  refine hQ.bind hx fun r => ?_
  cases r with
  | error e => exact hQ.pure _
  | ok a => exact hf a

/-- An action that cannot fail, among actions that may. -/
theorem lift {x : Flow α} (hx : Q x) : Q (liftM x : Work α).run := by
  rw [ExceptT.run_liftM]
  exact hQ.map Except.ok hx

theorem work_pure (a : α) : Q (Pure.pure a : Work α).run := hQ.pure (Except.ok a)

/-! ### Tests at work -/

theorem draw (hprogress : ∀ text, Q (emit (.progress text))) (text : String) :
    Q (draw text) := by
  rw [Testbench.draw]
  split
  · exact hQ.pure ()
  · exact hprogress text

theorem countResult (hprogress : ∀ text, Q (emit (.progress text))) (p : Progress)
    (r : TestResult) : Q (countResult p r) :=
  hQ.bind (hQ.draw hprogress _) fun _ => hQ.pure _

/-- A turn, by what is done to run a test and to observe a result. -/
theorem turn {tests : List Path} {run : Path → Flow TestResult}
    {observe : α → TestResult → Flow α} (hrun : ∀ test, Q (run test))
    (hobserve : ∀ a r, Q (observe a r)) (s : Pool × α) (t : Turn) :
    Q (Pool.turn tests run observe s t) := by
  cases t with
  | interrupt => exact hQ.pure _
  | start i =>
      rw [Pool.turn]
      cases tests[i]? with
      | none => exact hQ.pure _
      | some test =>
          cases s.1.interrupted with
          | true => exact hQ.pure _
          | false => exact hQ.bind (hrun test) fun r => hQ.pure _
  | deliver i =>
      rw [Pool.turn]
      rcases Pool.take i s.1.mail with _ | ⟨_ | r, mail⟩
      · exact hQ.pure _
      · exact hQ.pure _
      · exact hQ.bind (hobserve s.2 r) fun seen => hQ.pure _

variable (hnote : ∀ level origin text, Q (note level origin text)) {m : Machine}
include hnote

theorem runTest {simulator : Simulator} {options : ExecOptions}
    (hexecute : ∀ command, Q (execute m command options)) (test : Path) :
    Q (runTest m simulator options test) := by
  rw [Testbench.runTest]
  refine hQ.bind (hexecute _) fun result => ?_
  exact hQ.bind (hnote ..) fun _ => hQ.pure _

theorem runTests {observe : α → TestResult → Flow α} {options : RunOptions}
    (hexecute : ∀ command, Q (execute m command { timeout := options.timeout }))
    (hobserve : ∀ a r, Q (observe a r)) (tests : List Path) (simulator : Simulator) (seen : α) :
    Q (runTests m tests simulator options observe seen) := by
  rw [Testbench.runTests]
  cases tests.isEmpty with
  | true => exact hQ.pure _
  | false =>
      refine hQ.bind (hnote ..) fun _ => ?_
      refine hQ.bind (hQ.foldlM (hQ.turn ?_ hobserve) _ _) fun _ => hQ.pure _
      exact hQ.runTest hnote hexecute

/-! ### The gate -/

theorem runGate {command : Command} {options : ExecOptions}
    (hexecute : Q (execute m command options)) : Q (runGate m command options) := by
  rw [Testbench.runGate]
  refine hQ.bind (hnote ..) fun _ => ?_
  exact hQ.bind hexecute fun result => hQ.pure _

theorem warnIfAny (origin : String) (warning : Option String) :
    Q (warnIfAny origin warning) := by
  cases warning with
  | none => exact hQ.pure ()
  | some text => exact hnote ..

theorem configureRelease {options : ExecOptions}
    (hexecute : ∀ command, Q (execute m command options)) (spec : BuildSpec) :
    Q (configureRelease m spec options) := by
  rw [Testbench.configureRelease]
  cases spec.releaseConfigure with
  | none => exact hnote ..
  | some command => exact hQ.bind (hexecute command) fun _ => hQ.warnIfAny hnote ..

theorem buildSimulator {echo : Bool} (hexecute : ∀ command, Q (execute m command { echo }))
    (spec : BuildSpec) (release : Bool) : Q (buildSimulator m spec release echo).run := by
  have hgate : Q (Testbench.buildSimulator m spec false echo).run := by
    refine hQ.work_bind (hQ.lift (hQ.runGate hnote (hexecute _))) fun result => ?_
    cases result with
    | ok output => exact hQ.work_pure output
    | error failure => exact hQ.pure _
  cases release with
  | false => exact hgate
  | true => exact hQ.work_bind (hQ.lift (hQ.configureRelease hnote hexecute spec)) fun _ => hgate

variable {c : Config} {r : RunRequest} (hstatus : ∀ text, Q (emit (.status text)))
include hstatus

theorem passBuildGate (hexecute : ∀ command, Q (execute m command { echo := r.echoBuild })) :
    Q (passBuildGate m c r).run := by
  rw [Testbench.passBuildGate]
  cases r.skipBuild with
  | true => exact hQ.work_pure ()
  | false =>
      cases c.build with
      | none => exact hQ.work_pure ()
      | some spec =>
          refine hQ.work_bind (hQ.buildSimulator hnote hexecute spec r.release) fun _ => ?_
          exact hQ.lift (hstatus _)

/-! ### Other steps of a run -/

theorem announce (tests : List Path) : Q (announce c r tests) := by
  rw [Testbench.announce]
  refine hQ.bind (hnote ..) fun _ => hQ.bind (hstatus _) fun _ => ?_
  cases r.skipBuild with
  | true => exact hnote ..
  | false => exact hQ.pure ()

theorem runSmoke (hexecute : ∀ command,
    Q (execute m command { echo := r.echoSmoke, timeout := c.timeout })) :
    Q (runSmoke m c r) := by
  rw [Testbench.runSmoke]
  cases c.smokePath with
  | none => exact hQ.pure none
  | some test =>
      refine hQ.bind (hnote ..) fun _ => ?_
      refine hQ.bind (hQ.runTest hnote hexecute test) fun result => ?_
      exact hQ.bind (hstatus _) fun _ => hQ.pure _

end Composes

end Testbench
