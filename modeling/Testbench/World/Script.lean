/-
**Programs that play a script.**

A host runs programs that are written as lists of steps: they print, wait, create files, play the
steps of a test, leave other programs behind and end.  A program is an executable file that starts
with a header line and goes on with its steps; the steps of a test are a file of their own.  Time is
counted and not waited for, and of several programs at one time the one started first goes first.

Main definitions:

* `Testbench.Script.Step`, `Testbench.Script.ofData?` — the steps and how they are written;
* `Testbench.Script.Stage`, `Testbench.Script.tick` — programs at work;
* `Testbench.Script.perform` — all that becomes of a program;
* `Testbench.Script.Host`, `Testbench.Script.Host.machine` — a machine whose programs are scripts.
-/

import Testbench.Json.Reader
import Testbench.Text.Utf8
import Testbench.World.Executable
import Testbench.World.Machine

set_option relaxedAutoImplicit false
set_option autoImplicit false

namespace Testbench.Script

/-! ### Steps -/

/-- One step of a program. -/
inductive Step
  | print (bytes : List UInt8) (times : Nat)
  | printArguments
  | printDirectory
  | printInputSize
  | printGroup
  /-- Plays the test named behind the last flag for one. -/
  | playTest
  | touch (path : String)
  /-- Ends the program if a file is missing. -/
  | need (path : String)
  | sleep (ms : Nat)
  /-- Leaves a program behind. -/
  | leaveBehind (steps : List Step)
  /-- Plays steps if the first argument is this one, or if there is none. -/
  | whenFirst (argument : Option String) (steps : List Step)
  | exit (code : Int)
  | signal (number : Int)
deriving Repr, Inhabited

/-- The bytes that pairs of hexadecimal digits stand for. -/
def hexBytes : List Char → Option (List UInt8)
  | [] => some []
  | a :: b :: cs => do
      let n ← Text.hexNumber? [a, b]
      let bytes ← hexBytes cs
      return UInt8.ofNat n :: bytes
  | [_] => none

/-- The number of times something is printed. -/
def timesOf (fields : Data.Fields) : Nat :=
  (Data.field fields "times" Data.natural?).getD 1

/-- The bytes that a step prints, as text or in hexadecimal digits, to either stream. -/
def printed? (fields : Data.Fields) : Option (List UInt8) :=
  (["out", "err"].findSome? fun name =>
      (Data.field fields name Data.text?).map Utf8.encode) <|>
    ["out_hex", "err_hex"].findSome? fun name =>
      (Data.field fields name Data.text?).bind fun s => hexBytes s.toList

/-- The number behind a name. -/
def number? (fields : Data.Fields) (name : String) : Option Int :=
  Data.field fields name fun
    | .int n => some n
    | _ => none

/-- The step that a record describes; `inner` reads the steps inside of it. -/
def stepOf? (inner : Data → Option (List Step)) (fields : Data.Fields) : Option Step :=
  let flag (name : String) (step : Step) : Option Step :=
    if Data.field fields name Data.bool? = some true then some step else none
  (printed? fields).map (fun bytes => .print bytes (timesOf fields)) <|>
    flag "args" .printArguments <|>
    flag "cwd" .printDirectory <|>
    flag "stdin" .printInputSize <|>
    flag "pgrp" .printGroup <|>
    flag "sim" .playTest <|>
    (Data.field fields "touch" Data.text?).map .touch <|>
    (Data.field fields "need" Data.text?).map .need <|>
    (Data.field fields "sleep_ms" Data.natural?).map .sleep <|>
    (Data.field fields "bg" inner).map .leaveBehind <|>
    (do
      let steps ← Data.field fields "do" inner
      let argument ← Data.optional fields "if_arg0" Data.text?
      return .whenFirst argument steps) <|>
    (number? fields "exit").map .exit <|>
    (number? fields "signal").map .signal

/-- The steps that data describe, nested no deeper than `depth`. -/
def ofData? (depth : Nat) (d : Data) : Option (List Step) :=
  match depth with
  | 0 => none
  | depth + 1 => d.list? fun item => (Data.record? item).bind (stepOf? (ofData? depth))

/-- The steps in a file. -/
def ofBytes? (bytes : List UInt8) : Option (List Step) := do
  let text ← Utf8.strict? bytes
  let d ← Json.parse? text
  ofData? 64 d

/-- The line that the file of a program starts with. -/
def header : List UInt8 := Utf8.encode "#!steps\n"

/-- The steps of the program in a file. -/
def programOf? (bytes : List UInt8) : Option (List Step) :=
  if header.isPrefixOf bytes then ofBytes? (bytes.drop header.length) else none

/-! ### Programs at work -/

/-- What a program was started with. -/
structure Start where
  args : List String
  directory : Location
  /-- The directory that created files are named from. -/
  base : Location
deriving Repr

/-- A program at work: its next steps, when it goes on, and whether it is the one that was
started. -/
structure Player where
  steps : List Step
  wakesAt : Nat
  leads : Bool
deriving Repr

/-- Programs at work together. -/
structure Stage where
  disk : Disk
  /-- What was written so far and when, the latest first. -/
  writes : List (Nat × List UInt8) := []
  players : List Player
  /-- How and when the program that was started has ended. -/
  ended : Option (Nat × Ended) := none
  /-- The time of the latest step. -/
  clock : Nat := 0
deriving Repr

/-- The place of a directory named from another; one outside of it is named from the root. -/
def relativeName (base place : Location) : String :=
  if place = base then "."
  else
    let down := place.reverse
    if base.reverse.isPrefixOf down then Text.joined "/" (down.drop base.length)
    else "/" ++ Text.joined "/" down

/-- The argument behind the last flag for a test. -/
def testArgument (args : List String) : Option String :=
  (args.zip (args.drop 1)).foldl
    (fun found (flag, value) => if flag = testFileFlag then some value else found) none

/-- The steps of the test that the arguments name. -/
def testSteps (start : Start) (d : Disk) : Option (List Step) := do
  let path ← testArgument start.args
  let bytes ← ({ d with workingDirectory := start.directory }.read ⟨path⟩).toOption
  ofBytes? bytes

/-- A signal that ends the program that receives it. -/
def isDeadly (signal : Int) : Bool := !([0, 17, 18, 23, 28].contains signal)

/-- The bytes of a line. -/
def line (text : String) : List UInt8 := Utf8.encode (text ++ "\n")

/-- What a step does to its program: it goes on, waits, or ends. -/
inductive Effect
  | goOn (steps : List Step)
  | wait (ms : Nat)
  | over (ended : Ended)

/-- One step: what it does to its program, what it writes, and the disk and the programs left behind
after it. -/
def act (start : Start) (d : Disk) :
    Step → Effect × List (List UInt8) × Disk × List (List Step)
  | .print bytes times => (.goOn [], List.replicate times bytes, d, [])
  | .printArguments => (.goOn [], start.args.map fun a => line ("arg:" ++ a), d, [])
  | .printDirectory =>
      (.goOn [], [line ("cwd:" ++ relativeName start.base start.directory)], d, [])
  | .printInputSize => (.goOn [], [line "stdin:0"], d, [])
  | .printGroup => (.goOn [], [line "own_group:true"], d, [])
  | .playTest =>
      match testSteps start d with
      | some steps => (.goOn steps, [], d, [])
      | none => (.over (.exited 99), [line "no test"], d, [])
  | .touch path =>
      let created := ({ d with workingDirectory := start.base }.touch ⟨path⟩).nodes
      (.goOn [], [], { d with nodes := created }, [])
  | .need path =>
      if ({ d with workingDirectory := start.base }.stat true path).isOk then
        (.goOn [], [], d, [])
      else (.over (.exited 9), [line ("missing " ++ path)], d, [])
  | .sleep ms => (.wait ms, [], d, [])
  | .leaveBehind steps => (.goOn [], [], d, [steps])
  | .whenFirst argument steps =>
      (.goOn (if start.args.head? = argument then steps else []), [], d, [])
  | .exit code => (.over (.exited (code.emod 256)), [], d, [])
  | .signal number =>
      (if isDeadly number then .over (.signaled number) else .goOn [], [], d, [])

/-- The player that goes next: the earliest, and of those the one started first; and the others
before and after it. -/
def nextPlayer : List Player → Option (List Player × Player × List Player)
  | [] => none
  | p :: ps =>
      match nextPlayer ps with
      | none => some ([], p, [])
      | some (before, q, after) =>
          if p.wakesAt ≤ q.wakesAt then some ([], p, ps) else some (p :: before, q, after)

/-- The stage after a player has ended. -/
def Stage.retire (s : Stage) (p : Player) (how : Ended) : Stage :=
  if p.leads then { s with ended := some (p.wakesAt, how) } else s

/-- The next step of the programs, unless none is left before the time at which all are killed. -/
def tick (start : Start) (killed : Option Nat) (s : Stage) : Option Stage :=
  match nextPlayer s.players with
  | none => none
  | some (before, p, after) =>
      if killed.any fun t => t ≤ p.wakesAt then none
      else
        let s := { s with clock := p.wakesAt }
        match p.steps with
        | [] => some ({ s with players := before ++ after }.retire p (.exited 0))
        | step :: rest =>
            let (effect, written, disk, behind) := act start s.disk step
            let s := { s with
              disk
              writes := (written.map fun bytes => (p.wakesAt, bytes)).reverse ++ s.writes }
            let left := behind.map fun steps => { steps, wakesAt := p.wakesAt, leads := false }
            match effect with
            | .goOn steps =>
                let p := { p with steps := steps ++ rest }
                some { s with players := before ++ p :: after ++ left }
            | .wait ms =>
                let p := { p with steps := rest, wakesAt := p.wakesAt + ms }
                some { s with players := before ++ p :: after ++ left }
            | .over how => some ({ s with players := before ++ after ++ left }.retire p how)

/-- The programs at work until none is left, or all are killed, or `fuel` steps are done. -/
def play (start : Start) (killed : Option Nat) : Nat → Stage → Stage
  | 0, s => s
  | fuel + 1, s =>
      match tick start killed s with
      | none => s
      | some s => play start killed fuel s

/-- The most steps that programs may take. -/
def mostSteps : Nat := 100000

/-- All that becomes of a program. -/
def perform (start : Start) (d : Disk) (steps : List Step) : Lifeline :=
  let run (killed : Option Nat) : Stage :=
    play start killed mostSteps { disk := d, players := [{ steps, wakesAt := 0, leads := true }] }
  let last := run none
  let (endsAt, ended) := last.ended.getD (last.clock, .exited 0)
  { directory := start.directory
    writes := last.writes.reverse.map fun (t, bytes) => (Span.milliseconds t, bytes)
    endsAt := Span.milliseconds endsAt
    ended
    goneAt := Span.milliseconds last.clock
    leaves := fun killed => (run (killed.map Span.inMilliseconds)).disk
    group := 1 }

/-! ### A machine of scripts -/

/-- Where programs are looked up and where files are created. -/
structure Host where
  searchPath : List String
  base : Location
deriving Repr

/-- What becomes of a command on a host. -/
def Host.launch (h : Host) (d : Disk) (c : Command) : Except Fault Lifeline := do
  let (directory, content) ← d.findProgram h.searchPath c
  match programOf? content with
  | some steps => return perform { args := c.args, directory, base := h.base } d steps
  | none => throw .badExecutable

/-- A **machine whose programs are scripts**. -/
def Host.machine (h : Host) : Machine where
  launch := h.launch

end Testbench.Script
