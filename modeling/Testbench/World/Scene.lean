/-
**The scene of a run.**

A run acts on the disk and leaves a trace: programs that were started or could not be, text that was
shown, and notices for a log.  The trace keeps the order of events and does not decide where text
goes.

Main definitions:

* `Testbench.Event`, `Testbench.Scene` — the trace, the disk and the time that has passed;
* `Testbench.Flow`, `Testbench.Work` — actions on a scene, the latter with failures;
* `Testbench.Scene.starts`, `Testbench.Scene.attempts`, `Testbench.Scene.warnings` — what a trace
  tells.
-/

import Testbench.Failure
import Testbench.World.Machine

set_option relaxedAutoImplicit false
set_option autoImplicit false

namespace Testbench

/-- How urgent a notice is. -/
inductive Level
  | warn
  | info
  | debug
deriving DecidableEq, Repr

/-- Something that happened. -/
inductive Event
  /-- A program is about to be started. -/
  | attempted (command : Command)
  /-- A program was started in a directory. -/
  | started (command : Command) (directory : Location)
  /-- A program could not be started. -/
  | refused (command : Command) (fault : Fault)
  /-- A program and its group are gone. -/
  | ended (command : Command) (ending : Ending)
  /-- Output of a program was shown as it arrived. -/
  | echoed (bytes : List UInt8)
  /-- Something was shown to the person who watches. -/
  | status (text : String)
  /-- The progress line was drawn. -/
  | progress (text : String)
  /-- Something was noted for a log. -/
  | notice (level : Level) (origin : String) (text : String)
deriving DecidableEq, Repr

/-- The state of a run. -/
structure Scene where
  disk : Disk
  trace : List Event := []
  elapsed : Span := ⟨0⟩
deriving DecidableEq, Repr

/-- An action on a scene. -/
abbrev Flow := StateM Scene

/-- An action on a scene that can fail; what was done before it failed stays done. -/
abbrev Work := ExceptT Failure Flow

namespace Scene

/-- The scene after an event. -/
def add (s : Scene) (e : Event) : Scene := { s with trace := s.trace ++ [e] }

/-- The programs that were started, with their directories, in order. -/
def starts (s : Scene) : List (Command × Location) :=
  s.trace.filterMap fun
    | .started c place => some (c, place)
    | _ => none

/-- The programs whose start was tried, in order. -/
def attempts (s : Scene) : List Command :=
  s.trace.filterMap fun
    | .attempted c => some c
    | _ => none

/-- The bytes that were shown as they arrived. -/
def echoed (s : Scene) : List UInt8 :=
  s.trace.flatMap fun
    | .echoed bytes => bytes
    | _ => []

/-- The text that was shown to the person who watches. -/
def statusText (s : Scene) : String :=
  String.join (s.trace.filterMap fun
    | .status text => some text
    | _ => none)

/-- The text that was drawn as progress lines. -/
def progressText (s : Scene) : String :=
  String.join (s.trace.filterMap fun
    | .progress text => some text
    | _ => none)

/-- The warnings, in order. -/
def warnings (s : Scene) : List String :=
  s.trace.filterMap fun
    | .notice .warn _ text => some text
    | _ => none

@[simp] theorem add_disk (s : Scene) (e : Event) : (s.add e).disk = s.disk := rfl

@[simp] theorem add_trace (s : Scene) (e : Event) : (s.add e).trace = s.trace ++ [e] := rfl

end Scene

/-- Lets an event happen. -/
def emit (e : Event) : Flow Unit := modify (·.add e)

/-- Shows a line to the person who watches.  That the line cannot be written, which would be noted
as a warning and change nothing else, is left out. -/
def showLine (text : String) : Flow Unit := emit (.status (text ++ "\n"))

/-- Notes something for a log. -/
def note (level : Level) (origin : String) (text : String) : Flow Unit :=
  emit (.notice level origin text)

end Testbench
