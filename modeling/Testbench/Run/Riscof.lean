/-
**A RISCOF run.**

The simulator is built, its executable is copied into a checkout, and the script of the checkout is
run there.  The build and the script are gates; the script is not started unless the copy was made.

Main definitions:

* `Testbench.Riscof.target`, `Testbench.Riscof.install` — copying the executable;
* `Testbench.Riscof.command` — the script;
* `Testbench.runRiscof` — the run.
-/

import Testbench.Run.Session

set_option relaxedAutoImplicit false
set_option autoImplicit false

namespace Testbench

namespace Riscof

/-- The name that the script is called by when it fails. -/
def gateName : String := "Riscof"

/-- The path that the executable is copied to. -/
def target (r : Riscof) : Except Failure Path :=
  match r.artifact.fileName with
  | some name => .ok (r.dir.join name)
  | none => .error (.badConfig ("artifact has no file name: " ++ r.artifact.text))

/-- Copies the executable into the checkout, which has to be a directory. -/
def install (r : Riscof) (d : Disk) : Except Failure (Path × Disk) := do
  if !d.isDirectory r.dir then
    throw (.badConfig ("riscof directory does not exist: " ++ r.dir.text))
  let target ← r.target
  let d ← (d.copy r.artifact target).mapError
    (Failure.unusable ("failed to copy " ++ r.artifact.text ++ " to " ++ target.text))
  return (target, d)

/-- The script, run in the checkout.  A relative script with a slash in it is named from the
checkout; any other is named as it is. -/
def command (r : Riscof) : Command :=
  let anchored := !(Path.mk r.script).isAbsolute && r.script.toList.contains '/'
  let program := if anchored then (r.dir.join r.script).text else r.script
  ({ program } : Command).inDirectory r.dir

end Riscof

/-- Copies the executable into the checkout; a copy that is refused changes nothing. -/
def installArtifact (r : Riscof) : Work Path := do
  match r.install (← get).disk with
  | .error failure => throw failure
  | .ok (target, disk) =>
      modify fun s => { s with disk }
      return target

/-- Runs the compliance tests of a configuration. -/
def runRiscof (m : Machine) (c : Config) (r : RunRequest) : Work Output := do
  let some spec := c.riscof
    | throw (.badConfig "no [riscof] section configured and no --dir/--artifact given")
  passBuildGate m c r
  let installed ← installArtifact spec
  note .info "simharness::riscof"
    ("installed " ++ spec.artifact.text ++ " as " ++ installed.text)
  match ← runGate m spec.command { echo := r.echoBuild } with
  | .error (code, output) => throw (.gateFailed Riscof.gateName code output)
  | .ok output =>
      showLine "Riscof Success!"
      return output

end Testbench
