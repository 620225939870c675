/-
**Configurations.**

A run is described by one configuration.  It starts as a preset, and layers are put on top of it:
a layer sets some of the fields and leaves the others as they are.  The build and the smoke test
are optional steps; a layer can replace one, switch it off, or say that it stays as it is.

Main definitions:

* `Testbench.Config` — the configuration of a run;
* `Testbench.Toggle`, `Testbench.Layer`, `Testbench.Layer.applyTo` — layers;
* `Testbench.Config.check` — the configurations that make sense;
* `Testbench.Config.smokePath`, `Testbench.Config.timeout` — what follows from the fields.

Main results:

* `Testbench.Layer.applyTo_empty` — the empty layer changes nothing;
* `Testbench.Config.check_eq_none_iff` — when a configuration makes sense.
-/

import Testbench.Command
import Testbench.Failure
import Testbench.Text.Blank
import Testbench.Time.Span

set_option relaxedAutoImplicit false
set_option autoImplicit false

namespace Testbench

/-! ### The parts of a configuration -/

/-- How tests are named in a report. -/
inductive PathStyle
  | full
  | basename
deriving DecidableEq, Repr, Inhabited

/-- How the simulator is built. -/
structure BuildSpec where
  command : Command
  /-- Run before the command in a release build; whether it succeeds does not matter. -/
  releaseConfigure : Option Command := none
deriving DecidableEq, Repr

/-- A RISCOF run: the built simulator is copied into a checkout and the script there is run. -/
structure Riscof where
  dir : Path
  /-- The executable to copy. -/
  artifact : Path
  script : String
deriving DecidableEq, Repr

/-- The script of a checkout when none is named. -/
def Riscof.defaultScript : String := "./run-test.sh"

/-- The complete description of a run. -/
structure Config where
  /-- The directory that relative patterns and the smoke test start from. -/
  root : Path
  patterns : List String
  skip : List String
  excludedSuffixes : List String
  simulator : Simulator
  /-- The build gate; without one the simulator is taken as it is. -/
  build : Option BuildSpec
  /-- A test that runs alone before all others. -/
  smoke : Option Path
  /-- The number of tests run at a time; 0 means as many as there are processors. -/
  jobs : Nat
  timeoutSecs : Option Nat
  reportPaths : PathStyle
  riscof : Option Riscof
deriving DecidableEq, Repr

namespace Config

/-- The time a test may take. -/
def timeout (c : Config) : Option Span := c.timeoutSecs.map Span.seconds

/-- The path of the smoke test, taken from the root. -/
def smokePath (c : Config) : Option Path := c.smoke.map fun p => c.root.join p.text

/-- What makes no sense about a configuration, if anything. -/
def check (c : Config) : Option Failure :=
  if Text.isBlank c.simulator.base.program then
    some (.badConfig "simulator program must not be empty")
  else if c.build.any fun b => Text.isBlank b.command.program then
    some (.badConfig "build program must not be empty")
  else if c.timeoutSecs = some 0 then
    some (.badConfig "timeout_secs must be greater than 0")
  else none

/-- The configuration, if it makes sense. -/
def checked (c : Config) : Except Failure Config :=
  match c.check with
  | some failure => .error failure
  | none => .ok c

/-- A configuration makes sense when the programs have names and the limit is not zero. -/
theorem check_eq_none_iff (c : Config) :
    c.check = none ↔
      Text.isBlank c.simulator.base.program = false ∧
        (∀ b, c.build = some b → Text.isBlank b.command.program = false) ∧
        c.timeoutSecs ≠ some 0 := by
  unfold check
  cases hs : Text.isBlank c.simulator.base.program <;> cases hb : c.build with
  | none => by_cases ht : c.timeoutSecs = some 0 <;> simp [ht]
  | some b =>
      cases hp : Text.isBlank b.command.program <;>
        by_cases ht : c.timeoutSecs = some 0 <;> simp [hp, ht]

theorem checked_eq_ok_iff {c c' : Config} : c.checked = .ok c' ↔ c' = c ∧ c.check = none := by
  rw [checked]
  cases c.check <;> simp [eq_comm]

theorem checked_eq_error_iff {c : Config} {f : Failure} :
    c.checked = .error f ↔ c.check = some f := by
  rw [checked]
  cases c.check <;> simp

end Config

/-! ### Layers -/

/-- What a layer says about an optional step. -/
inductive Toggle (α : Type)
  /-- `false` switches the step off, `true` keeps what is below. -/
  | enabled (on : Bool)
  | set (value : α)
deriving DecidableEq, Repr

/-- The step after a layer. -/
def Toggle.applyTo {α : Type} (below : Option α) : Toggle α → Option α
  | enabled true => below
  | enabled false => none
  | set value => some value

/-- A configuration of which only some fields are set. -/
structure Layer where
  /-- The preset to start from, which counts in a configuration file only. -/
  preset : Option String := none
  root : Option Path := none
  patterns : Option (List String) := none
  skip : Option (List String) := none
  excludedSuffixes : Option (List String) := none
  simulator : Option Simulator := none
  build : Option (Toggle BuildSpec) := none
  smoke : Option (Toggle Path) := none
  jobs : Option Nat := none
  timeoutSecs : Option Nat := none
  reportPaths : Option PathStyle := none
  riscof : Option Riscof := none
deriving DecidableEq, Repr

namespace Layer

/-- An optional step after a layer that may not mention it. -/
def step {α : Type} (toggle : Option (Toggle α)) (below : Option α) : Option α :=
  match toggle with
  | none => below
  | some t => t.applyTo below

/-- The **configuration under a layer**. -/
def applyTo (l : Layer) (c : Config) : Config where
  root := l.root.getD c.root
  patterns := l.patterns.getD c.patterns
  skip := l.skip.getD c.skip
  excludedSuffixes := l.excludedSuffixes.getD c.excludedSuffixes
  simulator := l.simulator.getD c.simulator
  build := step l.build c.build
  smoke := step l.smoke c.smoke
  jobs := l.jobs.getD c.jobs
  timeoutSecs := l.timeoutSecs <|> c.timeoutSecs
  reportPaths := l.reportPaths.getD c.reportPaths
  riscof := l.riscof <|> c.riscof

/-- The empty layer changes nothing. -/
@[simp] theorem applyTo_empty (c : Config) : Layer.applyTo {} c = c := rfl

/-- The preset that a layer names does not matter once it is applied. -/
theorem applyTo_preset (l : Layer) (name : Option String) (c : Config) :
    ({ l with preset := name } : Layer).applyTo c = l.applyTo c := rfl

end Layer

end Testbench
