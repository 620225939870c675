/-
**Laying out files.**

A tree of files can be described as a list of entries, which are created one after the other.
Directories on the way to an entry are made as needed, and links on the way are followed.

Main definitions:

* `Testbench.Entry` — what is to be created, and where;
* `Testbench.Disk.lay`, `Testbench.Disk.layAll` — creating it.
-/

import Testbench.Json.Printer
import Testbench.World.Script

set_option relaxedAutoImplicit false
set_option autoImplicit false

namespace Testbench

/-- What is to be created at a path. -/
inductive Entry
  | directory
  | file (content : List UInt8) (executable : Bool)
  | link (target : String)
  /-- A link to a program outside of the tree that plays steps. -/
  | program (steps : Data)
deriving Repr

namespace Disk

/-- Makes the directories that a list of names leads through. -/
def makeDirectories (d : Disk) (place : Location) : List String → Disk
  | [] => d
  | name :: names =>
      match d.walk true mostLinks place [name] with
      | .ok (.vacant new) => makeDirectories (d.put new .directory) new names
      | .ok (.found there _) => makeDirectories d there names
      | .error _ => d

/-- The place that a path starts from. -/
def startOf (d : Disk) (path : String) : Location :=
  if Path.startsAtRoot path.toList then [] else d.workingDirectory

/-- Puts a node at the place that a path leads to. -/
def putAt (d : Disk) (follow : Bool) (path : String) (node : Node) : Disk :=
  match d.resolve follow path with
  | .ok (.found place _) | .ok (.vacant place) => d.put place node
  | .error _ => d

/-- The directory of programs outside of every tree. -/
def programs : Location := ["programs"]

/-- Creates one entry. -/
def lay (d : Disk) (path : String) (entry : Entry) : Disk :=
  let all := names path.toList
  let d := d.makeDirectories (d.startOf path)
    (match entry with | .directory => all | _ => all.dropLast)
  match entry with
  | .directory => d
  | .file content executable => d.putAt true path (.file content executable)
  | .link target => d.putAt false path (.link target)
  | .program steps =>
      let name := Decimal.ofNat d.nodes.length
      let content := Script.header ++ Utf8.encodeChars (Json.compact steps)
      let d := (d.put programs .directory).put (name :: programs) (.file content true)
      d.putAt false path (.link ("/programs/" ++ name))

/-- Creates entries in order. -/
def layAll (d : Disk) (entries : List (String × Entry)) : Disk :=
  entries.foldl (fun d (path, entry) => d.lay path entry) d

end Disk

end Testbench
