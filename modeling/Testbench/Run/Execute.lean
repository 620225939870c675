/-
**Running one program.**

A program is started, its output is collected and perhaps shown line by line, and it is killed with
its whole group when its time is up.  Whatever it returns is a result; it is a fault only if it
could not be started.

Main definitions:

* `Testbench.ExecOptions` — whether output is shown, and how long the program may run;
* `Testbench.execute` — running a command.

Main results:

* `Testbench.outputOf_returnCode` — the return code is that of the ending.

A program that was started is waited for and its output collected to the end; that either can fail
is left out.
-/

import Testbench.Run.Capture
import Testbench.World.Scene

set_option relaxedAutoImplicit false
set_option autoImplicit false

namespace Testbench

/-- How a program is run. -/
structure ExecOptions where
  /-- Lines are shown as they arrive. -/
  echo : Bool := false
  timeout : Option Span := none
deriving DecidableEq, Repr

/-- What is known of a program under a limit when it is gone. -/
def outputOf (l : Lifeline) (limit : Option Span) : Output where
  returnCode := (l.ending limit).code
  text := (Capture.ofChunks (l.chunks (l.killedAt limit))).text
  ending := l.ending limit
  duration := l.duration (l.killedAt limit)

@[simp] theorem outputOf_returnCode (l : Lifeline) (limit : Option Span) :
    (outputOf l limit).returnCode = (l.ending limit).code := rfl

/-- The lines that a program shows while it runs. -/
def echoEvents (l : Lifeline) (limit : Option Span) : List Event :=
  (Capture.ofChunks (l.chunks (l.killedAt limit))).lines.map .echoed

/-- The notice of a program that is killed, if it is. -/
def killEvents (l : Lifeline) (limit : Option Span) : List Event :=
  match l.killedAt limit with
  | none => []
  | some s =>
      [.notice .debug "simharness::exec"
        ("killing process group " ++ Decimal.ofNat l.group ++ " after " ++ s.text)]

/-- The scene after a program was started and is gone. -/
def Scene.afterRun (s : Scene) (command : Command) (options : ExecOptions) (l : Lifeline) :
    Scene where
  disk := l.leaves (l.killedAt options.timeout)
  trace := s.trace ++ ([.started command l.directory] ++
    (if options.echo then echoEvents l options.timeout else []) ++
    killEvents l options.timeout ++ [.ended command (l.ending options.timeout)])
  elapsed := ⟨s.elapsed.nanoseconds + (l.duration (l.killedAt options.timeout)).nanoseconds⟩

/-- Runs a command.  The one fault there is comes before the start. -/
def execute (m : Machine) (command : Command) (options : ExecOptions) :
    Flow (Except Fault Output) := do
  note .debug "simharness::exec" ("spawning: " ++ command.display)
  emit (.attempted command)
  match m.launch (← get).disk command with
  | .error fault =>
      emit (.refused command fault)
      return .error fault
  | .ok l =>
      modify (·.afterRun command options l)
      return .ok (outputOf l options.timeout)

end Testbench
