/-
**Files.**

A disk is a tree of directories, files and links.  A path is followed from the root or from the
working directory, one name after the other; a link on the way is replaced by its target, and no
path may run through more than forty links.  What cannot be followed is refused with the failure
the system gives.

Main definitions:

* `Testbench.Location`, `Testbench.Node`, `Testbench.Disk` — the tree;
* `Testbench.Disk.resolve` — the place a path leads to;
* `Testbench.Disk.isDirectory`, `Testbench.Disk.isFile`, `Testbench.Disk.hasEntry`,
  `Testbench.Disk.children` — asking about a path;
* `Testbench.Disk.read`, `Testbench.Disk.copy`, `Testbench.Disk.touch` — using files.

Main results:

* `Testbench.Disk.node?_put` — a node that was put somewhere is there, and nothing else changed.

A file has one place only, so that two paths lead to one file exactly if they lead to one place: a
second name for a file, other than a link, is left out.  So are permissions other than that of being
executed, and disks that are full or fail: what can be found can be read and written.
-/

import Testbench.Path
import Testbench.World.Fault

set_option relaxedAutoImplicit false
set_option autoImplicit false

namespace Testbench

/-- A place in the tree: the names that lead to it, the last one first.  The root is the empty
list. -/
abbrev Location := List String

/-- What is at a place. -/
inductive Node
  | directory
  | file (content : List UInt8) (executable : Bool)
  /-- A link to wherever a path leads, taken from the link's own directory. -/
  | link (target : String)
deriving DecidableEq, Repr

/-- A tree of files, and the directory that relative paths start from. -/
structure Disk where
  nodes : List (Location × Node) := []
  workingDirectory : Location := []
deriving DecidableEq, Repr

namespace Disk

/-! ### Places -/

/-- The node that a list has for a place. -/
def find? (place : Location) : List (Location × Node) → Option Node
  | [] => none
  | (p, node) :: rest => if p = place then some node else find? place rest

/-- What is at a place; the root is a directory. -/
def node? (d : Disk) (place : Location) : Option Node :=
  if place = [] then some .directory else find? place d.nodes

/-- The entries of a tree with one place taken by a node. -/
def replace (place : Location) (node : Node) : List (Location × Node) → List (Location × Node)
  | [] => [(place, node)]
  | (p, n) :: rest =>
      if p = place then (place, node) :: rest else (p, n) :: replace place node rest

/-- Puts a node at a place. -/
def put (d : Disk) (place : Location) (node : Node) : Disk :=
  { d with nodes := replace place node d.nodes }

theorem find?_replace (place : Location) (node : Node) (nodes : List (Location × Node))
    (other : Location) :
    find? other (replace place node nodes) =
      if other = place then some node else find? other nodes := by
  induction nodes with
  | nil => simp [replace, find?, eq_comm]
  | cons entry rest ih => grind [replace, find?]

/-- A node that was put somewhere is there, and nothing else changed. -/
theorem node?_put (d : Disk) {place : Location} (hp : place ≠ []) (node : Node)
    (other : Location) :
    (d.put place node).node? other = if other = place then some node else d.node? other := by
  by_cases ho : other = []
  · subst ho
    simp [node?, Ne.symm hp]
  · simp [node?, put, ho, find?_replace]

/-! ### Following a path -/

/-- The names in a path, dots included. -/
def names (path : List Char) : List String :=
  ((Text.pieces '/' path).filter (· ≠ [])).map String.ofList

/-- The longest name of an entry, in bytes. -/
def longestName : Nat := 255

/-- The longest text of a path, in bytes. -/
def longestPath : Nat := 4095

/-- The links that a path may run through. -/
def mostLinks : Nat := 40

/-- Where a path leads. -/
inductive Target
  | found (place : Location) (node : Node)
  /-- The directory is there, the entry is not. -/
  | vacant (place : Location)
deriving DecidableEq, Repr

/-- Follows names from a place up to the first link, which is left to `jump` with the place and the
names from there.  The last name is followed through a link only if `follow` says so. -/
def walkTo (d : Disk) (follow : Bool) (jump : Location → List String → Except Fault Target) :
    Location → List String → Except Fault Target
  | place, [] =>
      match d.node? place with
      | some node => .ok (.found place node)
      | none => .error .noSuchFile
  | place, name :: rest =>
      match d.node? place with
      | some .directory =>
          if name = "." then walkTo d follow jump place rest
          else if name = ".." then walkTo d follow jump place.tail rest
          else if name.utf8ByteSize > longestName then .error .nameTooLong
          else
            match d.node? (name :: place) with
            | none => if rest = [] then .ok (.vacant (name :: place)) else .error .noSuchFile
            | some (.link target) =>
                if rest = [] ∧ ¬follow then .ok (.found (name :: place) (.link target))
                else
                  jump (if Path.startsAtRoot target.toList then [] else place)
                    (Disk.names target.toList ++ rest)
            | some _ => walkTo d follow jump (name :: place) rest
      | some _ => .error .notDirectory
      | none => .error .noSuchFile

/-- Follows names from a place.  The number is that of the links that may still be met. -/
def walk (d : Disk) (follow : Bool) : Nat → Location → List String → Except Fault Target
  | 0 => walkTo d follow fun _ _ => .error .tooManyLinks
  | hops + 1 => walkTo d follow (walk d follow hops)

/-- The path ends with a slash, so that it can only mean a directory. -/
def wantsDirectory (path : String) : Bool := path.toList.getLast? = some '/'

/-- The **place a path leads to**. -/
def resolve (d : Disk) (follow : Bool) (path : String) : Except Fault Target := do
  if path.toList.contains '\x00' then throw .nulInPath
  if path = "" then throw .noSuchFile
  if path.utf8ByteSize > longestPath then throw .nameTooLong
  let start := if Path.startsAtRoot path.toList then [] else d.workingDirectory
  let target ← walk d (follow || wantsDirectory path) mostLinks start (names path.toList)
  match wantsDirectory path, target with
  | true, .found _ .directory => return target
  | true, .found _ _ => throw .notDirectory
  | true, .vacant _ => throw .noSuchFile
  | false, _ => return target

/-- The node a path leads to. -/
def stat (d : Disk) (follow : Bool) (path : String) : Except Fault (Location × Node) := do
  match ← d.resolve follow path with
  | .found place node => return (place, node)
  | .vacant _ => throw .noSuchFile

/-! ### Questions -/

/-- The path leads to a directory. -/
def isDirectory (d : Disk) (path : Path) : Bool :=
  match d.stat true path.text with
  | .ok (_, .directory) => true
  | _ => false

/-- The path leads to a regular file. -/
def isFile (d : Disk) (path : Path) : Bool :=
  match d.stat true path.text with
  | .ok (_, .file ..) => true
  | _ => false

/-- There is something at the path, if only a link that leads nowhere. -/
def hasEntry (d : Disk) (path : Path) : Bool := (d.stat false path.text).isOk

/-- The entries of the directory at a place. -/
def entries (d : Disk) (place : Location) : List (String × Node) :=
  d.nodes.filterMap fun
    | (name :: parent, node) => if parent = place then some (name, node) else none
    | ([], _) => none

/-- The entries of the directory that a path leads to, by ascending name. -/
def children (d : Disk) (path : Path) : List (String × Node) :=
  match d.stat true path.text with
  | .ok (place, .directory) =>
      (d.entries place).mergeSort fun a b => (compare a.1 b.1).isLE
  | _ => []

/-! ### Use -/

/-- The bytes of the file that a path leads to. -/
def read (d : Disk) (path : Path) : Except Fault (List UInt8) := do
  match ← d.stat true path.text with
  | (_, .file content _) => return content
  | _ => throw .isDirectory

/-- Copies a file: the target is emptied before the bytes are read, and takes over whether the file
can be executed.  What fails has changed nothing: a copy that fails when the target has been emptied
is left out. -/
def copy (d : Disk) (source target : Path) : Except Fault Disk := do
  match ← d.stat true source.text with
  | (origin, .file _ executable) =>
      match ← d.resolve true target.text with
      | .found place (.file ..) | .vacant place =>
          let emptied := d.put place (.file [] executable)
          match emptied.node? origin with
          | some (.file content _) => return emptied.put place (.file content executable)
          | _ => return emptied
      | .found _ _ => throw .isDirectory
  | _ => throw .notRegular

/-- Creates an empty file unless something is at the path already. -/
def touch (d : Disk) (path : Path) : Disk :=
  match d.resolve true path.text with
  | .ok (.vacant place) => d.put place (.file [] false)
  | _ => d

end Disk

end Testbench
