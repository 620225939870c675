/-
**Starting programs.**

What a program does is not known here.  A machine says, for every command and every state of the
disk, whether the program can be started, what it and the programs it leaves behind write and when,
how and when it ends, and what is on the disk afterwards, also if all of them are killed at some
time.  It also says in which order the tests of a run start and end when several run at once.

Main definitions:

* `Testbench.Lifeline` — a program that was started;
* `Testbench.Turn`, `Testbench.Turn.inOrder` — the order of starts and ends;
* `Testbench.Machine` — all that a run cannot decide by itself.

Main results:

* `Testbench.Lifeline.bytes_none` — a program that is not killed loses nothing.

Every program that is started ends, and so do those that it leaves behind, by themselves or because
its group is killed.  Left out are programs that never end, programs that leave their group and go
on writing when it is killed, and a system that cannot tell how a program ended.
-/

import Testbench.Command
import Testbench.Outcome
import Testbench.Time.Moment
import Testbench.World.Disk

set_option relaxedAutoImplicit false
set_option autoImplicit false

namespace Testbench

/-- How a program ends when it is left alone. -/
inductive Ended
  | exited (code : Int)
  | signaled (signal : Int)
deriving DecidableEq, Repr

/-- A program that was started, with all that becomes of it and of its group.  Nothing that it
leaves behind is outside of its group, so that nothing more is written when the group is killed. -/
structure Lifeline where
  /-- The directory it runs in. -/
  directory : Location
  /-- What is written to its output, by itself or by programs it left behind, in order. -/
  writes : List (Span × List UInt8)
  /-- When the program itself ends. -/
  endsAt : Span
  ended : Ended
  /-- When the last of its group is gone. -/
  goneAt : Span
  /-- What is on the disk when all are gone, or were killed at some time. -/
  leaves : Option Span → Disk
  /-- The number of its group. -/
  group : Nat

namespace Lifeline

/-- When the program is killed under a limit: at the limit, unless it has ended before. -/
def killedAt (l : Lifeline) (limit : Option Span) : Option Span :=
  limit.filter fun s => s.nanoseconds ≤ l.endsAt.nanoseconds

/-- How the program ends under a limit. -/
def ending (l : Lifeline) (limit : Option Span) : Ending :=
  match l.killedAt limit with
  | some s => .timedOut s
  | none =>
      match l.ended with
      | .exited code => .exited code
      | .signaled signal => .signaled signal

/-- The pieces that are written before the program is killed, if it is. -/
def chunks (l : Lifeline) (killed : Option Span) : List (List UInt8) :=
  let kept : List (Span × List UInt8) :=
    match killed with
    | none => l.writes
    | some s => l.writes.filter fun w => w.1.nanoseconds < s.nanoseconds
  kept.map (·.2)

/-- The time until nothing is left of the program and its group. -/
def duration (l : Lifeline) (killed : Option Span) : Span := killed.getD l.goneAt

/-- A program that is not killed loses nothing. -/
theorem bytes_none (l : Lifeline) : l.chunks none = l.writes.map (·.2) := rfl

end Lifeline

/-- What happens next while tests run at the same time. -/
inductive Turn
  /-- The test of a number starts, or is skipped after an interrupt. -/
  | start (index : Nat)
  /-- What became of the test of a number is noted. -/
  | deliver (index : Nat)
  /-- The run is interrupted. -/
  | interrupt
deriving DecidableEq, Repr

/-- One test after the other. -/
def Turn.inOrder (count : Nat) : List Turn :=
  (List.range count).flatMap fun i => [.start i, .deliver i]

/-- All that a run cannot decide by itself. -/
structure Machine where
  /-- What becomes of a command. -/
  launch : Disk → Command → Except Fault Lifeline
  /-- The order of so many tests on so many workers. -/
  schedule : Nat → Nat → List Turn := fun _ count => Turn.inOrder count
  /-- The number of tests run at a time when none is asked for. -/
  processors : Nat := 1
  /-- When the run starts. -/
  startedAt : Moment := default

/-- The number of workers when so many are asked for. -/
def Machine.workers (m : Machine) (jobs : Nat) : Nat := if jobs = 0 then m.processors else jobs

end Testbench
