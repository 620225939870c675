/-
**Commands as data.**

Main definitions:

* `Testbench.Command.toData`, `Testbench.Command.ofData?` — commands;
* `Testbench.Simulator.toData`, `Testbench.Simulator.ofData?` — a simulator is a command with one
  field more;
* `Testbench.BuildSpec.toData`, `Testbench.BuildSpec.ofData?` — and so is a build;
* `Testbench.Riscof.toData`, `Testbench.Riscof.ofData?` — a RISCOF run.
-/

import Testbench.Config.Basic
import Testbench.Data

set_option relaxedAutoImplicit false
set_option autoImplicit false

namespace Testbench

/-- A path as data. -/
def Path.toData (p : Path) : Data := .text p.text

/-- The path that a text spells. -/
def Path.ofData? (d : Data) : Option Path := d.text?.map Path.mk

namespace Command

/-- The fields of a command; a directory that is unset is left out. -/
def toFields (c : Command) : Data.Fields :=
  [("program", .text c.program), ("args", .ofTexts c.args)] ++
    Data.fieldIfAny "workdir" Path.toData c.workdir

/-- A command as data. -/
def toData (c : Command) : Data := .record c.toFields

/-- The command that some fields describe. -/
def ofFields? (fields : Data.Fields) : Option Command := do
  let program ← Data.field fields "program" Data.text?
  let args ← Data.defaulted fields "args" Data.texts? []
  let workdir ← Data.optional fields "workdir" Path.ofData?
  return { program, args, workdir }

/-- The command that data describe. -/
def ofData? (c : Data.Convention) (d : Data) : Option Command :=
  (d.fields? c ["program", "args", "workdir"] 1).bind ofFields?

end Command

namespace Simulator

/-- A simulator as data: the fields of its command and its flags. -/
def toData (s : Simulator) : Data := .record (s.base.toFields ++ [("flags", .ofTexts s.flags)])

/-- The simulator that data describe, which have to be a record. -/
def ofData? (d : Data) : Option Simulator := do
  let fields ← d.record?
  let flags ← Data.defaulted fields "flags" Data.texts? []
  let base ← Command.ofFields? fields
  return { base, flags }

end Simulator

namespace BuildSpec

/-- A build as data: the fields of its command, and the command run before it, if any. -/
def toData (b : BuildSpec) : Data :=
  .record (b.command.toFields ++
    Data.fieldIfAny "release_configure" Command.toData b.releaseConfigure)

/-- The build that data describe, which have to be a record. -/
def ofData? (c : Data.Convention) (d : Data) : Option BuildSpec := do
  let fields ← d.record?
  let releaseConfigure ← Data.optional fields "release_configure" (Command.ofData? c)
  let command ← Command.ofFields? fields
  return { command, releaseConfigure }

end BuildSpec

namespace Riscof

/-- A RISCOF run as data. -/
def toData (r : Riscof) : Data :=
  .record [("dir", r.dir.toData), ("artifact", r.artifact.toData), ("script", .text r.script)]

/-- The RISCOF run that data describe. -/
def ofData? (c : Data.Convention) (d : Data) : Option Riscof := do
  let fields ← d.fields? c ["dir", "artifact", "script"] 2
  let dir ← Data.field fields "dir" Path.ofData?
  let artifact ← Data.field fields "artifact" Path.ofData?
  let script ← Data.defaulted fields "script" Data.text? defaultScript
  return { dir, artifact, script }

end Riscof

end Testbench
