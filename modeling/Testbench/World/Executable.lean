/-
**Finding programs.**

A command changes to its working directory first.  A program with a slash in its name is then taken
from that directory; any other name is looked up in the directories of the search path, where a
candidate that may not be executed is remembered and passed over.

Main definitions:

* `Testbench.Disk.enterDirectory` — the disk as seen from another directory;
* `Testbench.Disk.findProgram` — the executable file of a command.
-/

import Testbench.Command
import Testbench.World.Disk

set_option relaxedAutoImplicit false
set_option autoImplicit false

namespace Testbench

/-- The command cannot be handed to the system because of a NUL character. -/
def Command.holdsNul (c : Command) : Bool :=
  let holds (s : String) : Bool := s.toList.contains '\x00'
  holds c.program || c.args.any holds || c.workdir.any fun dir => holds dir.text

namespace Disk

/-- The disk as seen from another directory. -/
def enterDirectory (d : Disk) (dir : Path) : Except Fault Disk := do
  match ← d.stat true dir.text with
  | (place, .directory) => return { d with workingDirectory := place }
  | _ => throw .notDirectory

/-- The executable file at a path. -/
def executable (d : Disk) (path : String) : Except Fault (List UInt8) := do
  match ← d.stat true path with
  | (_, .file content true) => return content
  | _ => throw .permissionDenied

/-- The name is passed over in a search path after this fault. -/
def passesOver (f : Fault) : Bool :=
  f = .noSuchFile || f = .notDirectory || f = .permissionDenied

/-- The executable file of a name in the first directory of a search path that has one.  A search
without success ends in a missing permission if there was one, else in its last fault; `last` is the
fault so far. -/
def searchProgram (d : Disk) (name : String) (last : Fault) :
    List String → Except Fault (List UInt8)
  | [] => .error last
  | dir :: dirs =>
      match d.executable ((Path.mk dir).join name).text with
      | .ok content => .ok content
      | .error f =>
          if passesOver f then
            searchProgram d name (if last = .permissionDenied then last else f) dirs
          else .error f

/-- The executable file of a command, and the directory that it runs in. -/
def findProgram (d : Disk) (searchPath : List String) (c : Command) :
    Except Fault (Location × List UInt8) := do
  if c.holdsNul then throw .nulInCommand
  let here ←
    match c.workdir with
    | none => pure d
    | some dir => d.enterDirectory dir
  let content ←
    if c.program.toList.contains '/' then here.executable c.program
    else if c.program = "" then throw .noSuchFile
    else if longestName < c.program.utf8ByteSize then throw .nameTooLong
    else here.searchProgram c.program .noSuchFile searchPath
  return (here.workingDirectory, content)

end Disk

end Testbench
