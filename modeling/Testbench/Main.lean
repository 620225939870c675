/-
**The command line.**

The program works on a disk of its own.  The files under the directory it is called in and the
configuration file of the user are read beforehand, links as what they lead to, and laid out on that
disk; what the run has changed is written back afterwards, followed by the two streams.  A program
that can be started is a file of steps.

Main definitions:

* `Testbench.Outside.survey` — reading files as what is to be laid out;
* `Testbench.Outside.writeBack` — writing back what has changed.
-/

import Std.Time.DateTime.Timestamp
import Testbench.Program
import Testbench.World.Layout

set_option relaxedAutoImplicit false
set_option autoImplicit false

namespace Testbench.Outside

/-- How many directories deep files are read. -/
def deepest : Nat := 32

/-- What is to be created on a disk, in order. -/
abbrev Entries := Array (String × Entry)

/-- Reads an entry of a directory, and all that is under it. -/
def survey (depth : Nat) (found : Entries) (entry : IO.FS.DirEntry) : IO Entries := do
  match depth with
  | 0 => return found
  | depth + 1 =>
      let path := entry.path.toString
      match ← entry.path.metadata.toBaseIO with
      | .error _ => return found
      | .ok metadata =>
          match metadata.type with
          | .dir =>
              (← entry.path.readDir).foldlM (survey depth) (found.push (path, .directory))
          | .file =>
              let content := (← IO.FS.readBinFile entry.path).toList
              return found.push (path, .file content (Script.header.isPrefixOf content))
          | _ => return found

/-- Reads the configuration file of a user. -/
def surveyUser (home : Path) : IO Entries := do
  let file := Config.userFile home
  match ← (IO.FS.readBinFile file.text).toBaseIO with
  | .ok content => return #[(file.text, .file content.toList false)]
  | .error _ => return #[]

/-- The text of a place. -/
def textOf (place : Location) : String := "/" ++ Text.joined "/" place.reverse

/-- Writes an entry of a disk. -/
def writeEntry (place : Location) : Node → IO Unit
  | .directory => IO.FS.createDirAll (textOf place)
  | .file content _ => IO.FS.writeBinFile (textOf place) content.toByteArray
  | .link _ => return ()

/-- Writes back what has changed. -/
def writeBack (before after : Disk) : IO Unit :=
  after.nodes.forM fun (place, node) =>
    if before.node? place = some node then return () else writeEntry place node

end Testbench.Outside

open Testbench

def main (words : List String) : IO UInt32 := do
  let here ← IO.currentDir
  let place := (Disk.names here.toString.toList).reverse
  let home : Path := ⟨(← IO.getEnv "HOME").getD "/"⟩
  let searchPath := (Text.pieces ':' ((← IO.getEnv "PATH").getD "").toList).map String.ofList
  let found ← Outside.surveyUser home
  let found ← (← here.readDir).foldlM (Outside.survey Outside.deepest)
    (found.push (here.toString, .directory))
  let d := ({ workingDirectory := place } : Disk).layAll found.toList
  let now ← Std.Time.Timestamp.now
  let machine := { Script.Host.machine { searchPath, base := place } with
    startedAt := .ofNanoseconds now.toNanosecondsSinceUnixEpoch.val.toNat }
  match Program.run machine home words false { disk := d } with
  | .error e =>
      let stream ← if e.isHelp then IO.getStdout else IO.getStderr
      stream.putStr (e.message ++ "\n")
      return e.exitCode.toUInt32
  | .ok (answer, scene) =>
      Outside.writeBack d scene.disk
      (← IO.getStdout).write answer.stdout.toByteArray
      (← IO.getStderr).write answer.stderr.toByteArray
      return answer.exitCode.toUInt32
