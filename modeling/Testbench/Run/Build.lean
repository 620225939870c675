/-
**Gates.**

A gate is a command that has to succeed before anything else is done.  The build of the simulator is
one; in a release build a configure step runs before it, and whether that one succeeds is worth a
warning and nothing more.

Main definitions:

* `Testbench.runGate` — a command that has to succeed;
* `Testbench.configureRelease`, `Testbench.buildSimulator` — the build.

Main results:

* `Testbench.gateResult_ok_iff` — a gate opens exactly for a command that ran and succeeded.
-/

import Testbench.Config.Basic
import Testbench.Run.Execute

set_option relaxedAutoImplicit false
set_option autoImplicit false

namespace Testbench

/-- What a gate makes of a command: its output if it succeeded, else a code and a text. -/
def gateResult (command : Command) (result : Except Fault Output) :
    Except (Int × String) Output :=
  match result with
  | .ok output => if output.success then .ok output else .error (output.returnCode, output.text)
  | .error fault =>
      .error (dispatchFailureCode,
        "failed to run '" ++ command.display ++ "': " ++ fault.message ++ "\n")

/-- A gate opens exactly for a command that ran and succeeded. -/
theorem gateResult_ok_iff (command : Command) (result : Except Fault Output) (output : Output) :
    gateResult command result = .ok output ↔ result = .ok output ∧ output.returnCode = 0 := by
  cases result with
  | error fault => simp [gateResult]
  | ok o =>
      by_cases h : o.returnCode = 0
      · simp only [gateResult, Output.success, h, decide_true, if_true, Except.ok.injEq]
        constructor
        · rintro rfl; exact ⟨rfl, h⟩
        · rintro ⟨rfl, -⟩; rfl
      · simp only [gateResult, Output.success, h, decide_false, Except.ok.injEq]
        constructor
        · simp
        · rintro ⟨rfl, h'⟩; exact absurd h' h

/-- Runs a command that has to succeed. -/
def runGate (m : Machine) (command : Command) (options : ExecOptions) :
    Flow (Except (Int × String) Output) := do
  note .info "simharness::build" ("running gate: " ++ command.display)
  return gateResult command (← execute m command options)

/-- The warning about a configure step, if it is worth one. -/
def configureWarning (command : Command) (result : Except Fault Output) : Option String :=
  match result with
  | .ok output =>
      if output.success then none
      else some ("'" ++ command.display ++ "' returned " ++ Decimal.ofInt output.returnCode ++
        ", building anyway")
  | .error fault => some ("could not run '" ++ command.display ++ "': " ++ fault.message)

/-- Notes a warning, if there is one. -/
def warnIfAny (origin : String) : Option String → Flow Unit
  | none => pure ()
  | some text => note .warn origin text

/-- The configure step of a release build. -/
def configureRelease (m : Machine) (spec : BuildSpec) (options : ExecOptions) : Flow Unit := do
  match spec.releaseConfigure with
  | some command =>
      warnIfAny "simharness::build" (configureWarning command (← execute m command options))
  | none =>
      note .warn "simharness::build"
        "release build requested but no release_configure command is set"

/-- Builds the simulator. -/
def buildSimulator (m : Machine) (spec : BuildSpec) (release echo : Bool) : Work Output := do
  let options : ExecOptions := { echo }
  if release then configureRelease m spec options
  match ← runGate m spec.command options with
  | .ok output => return output
  | .error (code, output) => throw (.buildFailed code output)

end Testbench
