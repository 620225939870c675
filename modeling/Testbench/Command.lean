/-
**Commands.**

A command is a program with its arguments and perhaps a directory to run in.  No shell is involved:
the arguments reach the program as they are.

Main definitions:

* `Testbench.Command`, `Testbench.Command.display` — a command and its text in logs;
* `Testbench.Simulator`, `Testbench.Simulator.commandFor` — how a test program is run.
-/

import Testbench.Path

set_option relaxedAutoImplicit false
set_option autoImplicit false

namespace Testbench

/-- A program and what it is given. -/
structure Command where
  program : String
  args : List String := []
  /-- The directory the program runs in; the one of the caller if unset. -/
  workdir : Option Path := none
deriving DecidableEq, Repr

namespace Command

/-- The command with one more argument. -/
def arg (c : Command) (a : String) : Command := { c with args := c.args ++ [a] }

/-- The command with more arguments. -/
def addArgs (c : Command) (as : List String) : Command := { c with args := c.args ++ as }

/-- The command run in a directory. -/
def inDirectory (c : Command) (dir : Path) : Command := { c with workdir := some dir }

/-- The program and its arguments with blanks between them, for logs and messages. -/
def display (c : Command) : String := Text.joined " " (c.program :: c.args)

end Command

/-- The flag in front of the path of a test program. -/
def testFileFlag : String := "-f"

/-- How a test program is run: `<program> <args..> <flags..> -f <test>`. -/
structure Simulator where
  base : Command
  /-- Flags for the simulator, which are passed on untouched. -/
  flags : List String := []
deriving DecidableEq, Repr

/-- The command that runs one test program. -/
def Simulator.commandFor (s : Simulator) (test : Path) : Command :=
  s.base.addArgs (s.flags ++ [testFileFlag, test.text])

end Testbench
