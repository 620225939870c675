/-
**What actions depend on.**

The actions of a run look at nothing of a scene but its disk, and what they do is added to what has
happened before.  So an action can be thought of as taking place on a bare disk, where nothing has
happened yet: in any other scene with this disk it gives the same value and leaves the same disk,
and the same events follow.

Main definitions:

* `Testbench.Scene.followedBy` — one scene after another;
* `Testbench.Framed` — an action that depends on the disk alone.

Main results:

* `Testbench.framed_bind`, `Testbench.composes_framed` — framed actions can be put together;
* `Testbench.framed_execute`, `Testbench.framed_runTests`, `Testbench.framed_passBuildGate`,
  `Testbench.framed_runSmoke` — the actions of a run;
* `Testbench.Framed.value_eq`, `Testbench.Framed.keeps_trace` — what follows for a framed action.
-/

import Testbench.Proofs.Composition

set_option relaxedAutoImplicit false
set_option autoImplicit false

namespace Testbench

variable {α β : Type}

/-! ### Running actions -/

theorem run_bind (x : Flow α) (f : α → Flow β) (s : Scene) :
    (x >>= f).run s = (f (x.run s).1).run (x.run s).2 := rfl

theorem run_work_bind (x : Work α) (f : α → Work β) (s : Scene) :
    (x >>= f).run.run s =
      match (x.run.run s).1 with
      | .error failure => (.error failure, (x.run.run s).2)
      | .ok a => (f a).run.run (x.run.run s).2 := by
  rw [ExceptT.run_bind, run_bind]
  cases (x.run.run s).1 <;> rfl

theorem run_work_get (f : Scene → Work α) (s : Scene) :
    ((get : Work Scene) >>= f).run.run s = (f s).run.run s := rfl

theorem run_work_bind_of_ok {x : Work α} {s s' : Scene} {a : α} (hx : x.run.run s = (.ok a, s'))
    (f : α → Work β) : (x >>= f).run.run s = (f a).run.run s' := by
  rw [run_work_bind, hx]

theorem run_work_bind_of_error {x : Work α} {s s' : Scene} {failure : Failure}
    (hx : x.run.run s = (.error failure, s')) (f : α → Work β) :
    (x >>= f).run.run s = (.error failure, s') := by
  rw [run_work_bind, hx]

/-! ### One scene after another -/

namespace Scene

/-- A disk on which nothing has happened yet. -/
def ofDisk (d : Disk) : Scene := { disk := d }

/-- One scene after another: the events and the time of both, and the disk of the latter. -/
def followedBy (s t : Scene) : Scene where
  disk := t.disk
  trace := s.trace ++ t.trace
  elapsed := ⟨s.elapsed.nanoseconds + t.elapsed.nanoseconds⟩

theorem followedBy_ofDisk (s : Scene) : s.followedBy (ofDisk s.disk) = s := by
  rw [followedBy, ofDisk, List.append_nil]; rfl

theorem followedBy_assoc (s t u : Scene) :
    (s.followedBy t).followedBy u = s.followedBy (t.followedBy u) := by
  rw [followedBy, followedBy, followedBy, followedBy, List.append_assoc, Nat.add_assoc]

theorem add_eq_followedBy (s : Scene) (e : Event) :
    s.add e = s.followedBy ((ofDisk s.disk).add e) := rfl

end Scene

/-! ### Framed actions -/

/-- An action **depends on the disk alone**: what it does in a scene is what it does on the bare
disk, after what has happened before. -/
structure Framed (x : Flow α) : Prop where
  run_eq : ∀ s, x.run s =
    ((x.run (.ofDisk s.disk)).1, s.followedBy (x.run (.ofDisk s.disk)).2)

namespace Framed

variable {x : Flow α}

theorem value_eq (h : Framed x) {s t : Scene} (hd : s.disk = t.disk) :
    (x.run s).1 = (x.run t).1 := by
  rw [h.run_eq s, h.run_eq t, hd]

/-- What has happened stays in the trace. -/
theorem keeps_trace (h : Framed x) (s : Scene) : s.trace <+: (x.run s).2.trace := by
  rw [h.run_eq s]
  exact List.prefix_append ..

end Framed

theorem framed_pure (a : α) : Framed (pure a : Flow α) := by
  constructor
  intro s
  exact congrArg (Prod.mk a) s.followedBy_ofDisk.symm

/-- One framed action after another is framed. -/
theorem framed_bind {x : Flow α} {f : α → Flow β} (hx : Framed x) (hf : ∀ a, Framed (f a)) :
    Framed (x >>= f) := by
  constructor
  intro s
  rw [run_bind, run_bind, hx.run_eq s, (hf _).run_eq (s.followedBy _),
    (hf _).run_eq (x.run (.ofDisk s.disk)).2, Scene.followedBy_assoc]
  rfl

/-- Framed actions can be put together. -/
theorem composes_framed : Composes (@Framed) := ⟨framed_pure, framed_bind⟩

theorem framed_emit (e : Event) : Framed (emit e) := by
  constructor
  intro s
  exact congrArg (Prod.mk ()) (s.add_eq_followedBy e)

theorem framed_note (level : Level) (origin text : String) : Framed (note level origin text) :=
  framed_emit _

/-! ### Programs -/

/-- The scene when the start of a program is tried. -/
def Scene.attempt (s : Scene) (command : Command) : Scene :=
  (s.add (.notice .debug "simharness::exec" ("spawning: " ++ command.display))).add
    (.attempted command)

theorem run_execute (m : Machine) (command : Command) (options : ExecOptions) (s : Scene) :
    (execute m command options).run s =
      match m.launch s.disk command with
      | .error fault => (.error fault, (s.attempt command).add (.refused command fault))
      | .ok l =>
          (.ok (outputOf l options.timeout), (s.attempt command).afterRun command options l) := by
  have hrun : (execute m command options).run s =
      StateT.run (match m.launch s.disk command with
        | .error fault => do
            emit (.refused command fault)
            return .error fault
        | .ok l => do
            modify (·.afterRun command options l)
            return .ok (outputOf l options.timeout) : Flow (Except Fault Output))
        (s.attempt command) := rfl
  rw [hrun]
  cases m.launch s.disk command <;> rfl

theorem framed_execute (m : Machine) (command : Command) (options : ExecOptions) :
    Framed (execute m command options) := by
  constructor
  intro s
  rw [run_execute, run_execute]
  -- what becomes of the program is decided by the disk, which is the same in both scenes
  have hdisk : (Scene.ofDisk s.disk).disk = s.disk := rfl
  rw [hdisk]
  cases m.launch s.disk command with
  | error fault => simp [Scene.attempt, Scene.add, Scene.followedBy, Scene.ofDisk]
  | ok l => simp [Scene.attempt, Scene.add, Scene.followedBy, Scene.ofDisk, Scene.afterRun]

/-! ### The steps of a run -/

theorem framed_runTests {observe : α → TestResult → Flow α} (hobserve : ∀ a r, Framed (observe a r))
    (m : Machine) (tests : List Path) (simulator : Simulator) (options : RunOptions) (seen : α) :
    Framed (runTests m tests simulator options observe seen) :=
  composes_framed.runTests framed_note (fun _ => framed_execute ..) hobserve tests simulator seen

theorem framed_draw (text : String) : Framed (draw text) :=
  composes_framed.draw (fun _ => framed_emit _) text

theorem framed_countResult (p : Progress) (r : TestResult) : Framed (countResult p r) :=
  composes_framed.countResult (fun _ => framed_emit _) p r

theorem framed_passBuildGate (m : Machine) (c : Config) (r : RunRequest) :
    Framed (passBuildGate m c r).run :=
  composes_framed.passBuildGate framed_note (fun _ => framed_emit _) fun _ => framed_execute ..

theorem framed_runSmoke (m : Machine) (c : Config) (r : RunRequest) :
    Framed (runSmoke m c r) :=
  composes_framed.runSmoke framed_note (fun _ => framed_emit _) fun _ => framed_execute ..

end Testbench
